import SvcLens.Command.Run
import SvcLens.Proofs.Overwrite

namespace SvcLens

def Text.Loose.IsStrict (t : Text.Loose) : Prop :=
  ∀ p ∈ t, p.surrogate? = none

def TableFile.IsStrict (f : TableFile) : Prop :=
  ∀ e ∈ f.entries, e.2.name.IsStrict ∧ (∀ r ∈ e.2.roles, r.name.IsStrict) ∧ e.2.returns.IsStrict

instance (t : Text.Loose) : Decidable t.IsStrict :=
  inferInstanceAs (Decidable (∀ p ∈ t, p.surrogate? = none))

instance (f : TableFile) : Decidable f.IsStrict :=
  inferInstanceAs (Decidable (∀ e ∈ f.entries, e.2.name.IsStrict ∧
    (∀ r ∈ e.2.roles, r.name.IsStrict) ∧ e.2.returns.IsStrict))

theorem Text.Loose.IsStrict.fill_eq {t : Text.Loose} (h : t.IsStrict)
    (a b : Text.Surrogate → Char) : t.fill a = t.fill b := by
  refine congrArg String.ofList (List.map_congr_left fun p hp => ?_)
  cases p
  case char => rfl
  case surrogate => exact absurd (h _ hp) (by simp [CodePoint.surrogate?])

theorem TableFile.IsStrict.syscalls_eq {f : TableFile} (h : f.IsStrict)
    (a b : Text.Surrogate → Char) : f.syscalls a = f.syscalls b := by
  refine IntMap.ext (List.map_congr_left fun e he => ?_)
  have ⟨hn, ha, hr⟩ := h e he
  have hroles : e.2.roles.map (Role.argument a) = e.2.roles.map (Role.argument b) :=
    List.map_congr_left fun r hr => by simp only [Role.argument, (ha r hr).fill_eq a b]
  simp only [Entry.syscall, hn.fill_eq a b, hroles, hr.fill_eq a b]

theorem Text.Loose.ofFillings_self (s : String) : ofFillings s s = ofString s := by
  simp [ofFillings, ofString, List.zipWith_self, CodePoint.ofFillings]

namespace Command

open Text (Utf8.decode Utf8.encode)

namespace Directory

def content (d : Directory) (path : String) : Except FileError (List UInt8) :=
  if path.toList.contains '\x00' then .error .zeroInPath else d.read path

def placeFor (d : Directory) (path : String) : Except FileError (List String) :=
  if path.toList.contains '\x00' then .error .zeroInPath else d.target path

theorem run_read (d : Directory) (input : List UInt8) (path : String) :
    ((host input).read path).run d = (d.content path, d) := by
  simp only [Host.read, Host.guarded, content]
  split <;> rfl

theorem run_readInput (d : Directory) (input : List UInt8) :
    (host input).readInput.run d = (input, d) :=
  rfl

theorem run_write (d : Directory) (input : List UInt8) (path : String) (bytes : List UInt8) :
    ((host input).write path bytes).run d =
      match d.placeFor path with
      | .error e => (.error e, d)
      | .ok place => (.ok (), d.put place bytes) := by
  simp only [Host.write, Host.guarded, placeFor]
  split
  case isTrue => rfl
  case isFalse => cases h : d.target path <;> simp [host, h] <;> rfl

end Directory

theorem run_bind {σ α β : Type} {x : StateM σ α} {f : α → StateM σ β} {s t : σ} {a : α}
    (h : x.run s = (a, t)) : (x >>= f).run s = (f a).run t := by
  rw [StateT.run_bind, h]
  rfl

inductive Provides (d : Directory) : Option String → SyscallTable → Prop
  | absent : Provides d none Syscall.linux
  | empty : Provides d (some "") Syscall.linux
  | file {path bytes f} : path ≠ "" → d.content path = .ok bytes → TableFile.load bytes = .ok f →
      Provides d (some path) (f.syscalls Text.Surrogate.standIn)

-- A table file that cannot be read, or that something is wrong with. To be nested too deeply is not
-- among the things that a file is refused for.
inductive RefusesTable (d : Directory) : Option String → Prop
  | unread {path e} : path ≠ "" → d.content path = .error e → RefusesTable d (some path)
  | invalid {path bytes e} : path ≠ "" → d.content path = .ok bytes →
      TableFile.load bytes = .error e → (∀ c, e ≠ .json (.tooDeep c)) → RefusesTable d (some path)

def HasStrictTable (d : Directory) (path : Option String) : Prop :=
  ∀ p ∈ path, ∀ bytes ∈ (d.content p).toOption, ∀ f ∈ (TableFile.load bytes).toOption, f.IsStrict

instance (d : Directory) (path : Option String) : Decidable (HasStrictTable d path) :=
  inferInstanceAs (Decidable (∀ p ∈ path, ∀ bytes ∈ (d.content p).toOption,
    ∀ f ∈ (TableFile.load bytes).toOption, f.IsStrict))

-- The text of a source: what is on the standard input, with line feeds for all breaks, or what is
-- in a file.
inductive Sources (d : Directory) (input : List UInt8) : String → String → Prop
  | input {text} : Utf8.decode input = .ok text →
      Sources d input "-" (String.ofList (Text.unifyBreaks text.toList))
  | file {path bytes text} : path ≠ "-" → d.content path = .ok bytes →
      Utf8.decode bytes = .ok text → Sources d input path text

inductive RefusesSource (d : Directory) (input : List UInt8) : String → Prop
  | input {e} : Utf8.decode input = .error e → RefusesSource d input "-"
  | unread {path code reason} : path ≠ "-" → d.content path = .error (.refused code reason) →
      RefusesSource d input path
  | undecoded {path bytes e} : path ≠ "-" → d.content path = .ok bytes →
      Utf8.decode bytes = .error e → RefusesSource d input path

inductive RefusesOutput (d : Directory) : Option String → Prop
  | intro {path code reason} : path ≠ "" → d.placeFor path = .error (.refused code reason) →
      RefusesOutput d (some path)

inductive AcceptsOutput (d : Directory) : Option String → Prop
  | absent : AcceptsOutput d none
  | empty : AcceptsOutput d (some "")
  | file {path place} : path ≠ "" → d.placeFor path = .ok place → AcceptsOutput d (some path)

-- The one place that a text goes to, with what is on the standard output then. A file can be read
-- back under its path, and all else in the directory is as before.
inductive Delivers (before : Directory) (text : String) :
    Option String → Directory → String → Prop
  | absent : Delivers before text none before text
  | empty : Delivers before text (some "") before text
  | file {path place after} : path ≠ "" → before.placeFor path = .ok place →
      after.content path = .ok (Utf8.encode text) →
      after.file? place = some (Utf8.encode text) →
      (∀ other, other ≠ place → after.file? other = before.file? other) →
      (∀ p, after.isFolder p = before.isFolder p) → Delivers before text (some path) after ""

open Directory (host run_read run_readInput run_write)

variable {d after : Directory} {input : List UInt8} {path output file : Option String}
variable {table : SyscallTable} {source text : String} {l : Listing}

theorem filter_of_ne_empty {path : String} (h : path ≠ "") :
    (some path).filter (!·.isEmpty) = some path := by
  simp [Option.filter, h]

theorem run_tableFor_of_provides (hs : HasStrictTable d path) (h : Provides d path table) :
    (tableFor (host input) path).run d = (.ok fun _ => table, d) := by
  cases h
  case absent | empty => rfl
  case file path bytes f hp hb hf =>
    have hstrict := hs path rfl bytes (by rw [hb]; rfl) f (by rw [hf]; rfl)
    have he : (fun _ => f.syscalls Text.Surrogate.standIn) = f.syscalls :=
      funext (hstrict.syscalls_eq _)
    simp only [tableFor, filter_of_ne_empty hp]
    rw [run_bind (run_read d input path), hb, he]
    simp only [hf]
    rfl

theorem run_tableFor_of_refuses (h : RefusesTable d path) (input : List UInt8) :
    ∃ err, (tableFor (host input) path).run d = (.error (failed err), d) := by
  cases h
  case unread path e hp hb =>
    simp only [tableFor, filter_of_ne_empty hp]
    rw [run_bind (run_read d input path), hb]
    exact ⟨_, rfl⟩
  case invalid path bytes e hp hb hf hd =>
    simp only [tableFor, filter_of_ne_empty hp]
    rw [run_bind (run_read d input path), hb]
    simp only [hf]
    exact ⟨_, rfl⟩

theorem provides_or_refuses (d : Directory) (input : List UInt8) (path : Option String) :
    (∃ table, Provides d path table) ∨ RefusesTable d path ∨
      ∃ fault, (tableFor (host input) path).run d = (.error (.broken fault), d) := by
  cases path
  case none => exact .inl ⟨_, .absent⟩
  case some path =>
    by_cases hp : path = ""
    case pos => exact hp ▸ .inl ⟨_, .empty⟩
    case neg =>
      cases hb : d.content path
      case error e => exact .inr <| .inl (.unread hp hb)
      case ok bytes =>
        cases hf : TableFile.load bytes
        case ok f => exact .inl ⟨_, .file hp hb hf⟩
        case error e =>
          by_cases hd : ∃ c, e = .json (.tooDeep c)
          case neg => exact .inr <| .inl (.invalid hp hb hf fun c he => hd ⟨c, he⟩)
          case pos =>
            obtain ⟨c, rfl⟩ := hd
            refine .inr <| .inr ⟨.tooDeep c, ?_⟩
            simp only [tableFor, filter_of_ne_empty hp]
            rw [run_bind (run_read d input path), hb]
            simp only [hf]
            rfl

theorem run_textOf_of_sources (h : Sources d input source text) :
    (textOf (host input) source).run d = (.ok text, d) := by
  cases h
  case input text ht =>
    simp only [textOf, if_true]
    rw [run_bind (run_readInput d input), ht]
    rfl
  case file bytes hp hb ht =>
    simp only [textOf, hp, if_false]
    rw [run_bind (run_read d input source), hb]
    simp only [ht]
    rfl

theorem run_textOf_of_refuses (h : RefusesSource d input source) :
    ∃ err, (textOf (host input) source).run d = (.error (failed err), d) := by
  cases h
  case input e he =>
    simp only [textOf, if_true]
    rw [run_bind (run_readInput d input), he]
    exact ⟨_, rfl⟩
  case unread code reason hp hb =>
    simp only [textOf, hp, if_false]
    rw [run_bind (run_read d input source), hb]
    exact ⟨_, rfl⟩
  case undecoded bytes e he hp hb =>
    simp only [textOf, hp, if_false]
    rw [run_bind (run_read d input source), hb]
    simp only [he]
    exact ⟨_, rfl⟩

theorem sources_or_refuses (d : Directory) (input : List UInt8) (source : String) :
    (∃ text, Sources d input source text) ∨ RefusesSource d input source ∨
      ∃ fault, (textOf (host input) source).run d = (.error (.broken fault), d) := by
  by_cases hp : source = "-"
  case pos =>
    subst hp
    cases ht : Utf8.decode input
    case ok text => exact .inl ⟨_, .input ht⟩
    case error e => exact .inr <| .inl (.input ht)
  case neg =>
    cases hb : d.content source
    case ok bytes =>
      cases ht : Utf8.decode bytes
      case ok text => exact .inl ⟨text, .file hp hb ht⟩
      case error e => exact .inr <| .inl (.undecoded hp hb ht)
    case error e =>
      cases e
      case refused code reason => exact .inr <| .inl (.unread hp hb)
      case zeroInPath =>
        refine .inr <| .inr ⟨.zeroInPath, ?_⟩
        simp only [textOf, hp, if_false]
        rw [run_bind (run_read d input source), hb]
        rfl

-- Without surrogates there is one listing, and its text can be encoded.
theorem resultOf_of_reported {shown : String} (h : Listing.ofText table file text = .ok l)
    (hr : reported l.diagnostics = .ok shown) (stamp : String) (level : Nat) :
    resultOf stamp level (fun _ => table) file text =
      .ok ⟨l, .ofString l.text, logged stamp level l.trace ++ shown⟩ := by
  refine bind_eq_ok_iff.mpr ⟨l, h, bind_eq_ok_iff.mpr ⟨l, h, bind_eq_ok_iff.mpr ⟨shown, hr, ?_⟩⟩⟩
  rw [Text.Loose.ofFillings_self]
  rfl

theorem resultOf_eq_ok (h : Listing.ofText table file text = .ok l)
    (hs : ¬Fails (reported l.diagnostics)) (stamp : String) (level : Nat) :
    ∃ err, resultOf stamp level (fun _ => table) file text = .ok ⟨l, .ofString l.text, err⟩ := by
  have ⟨_, hr⟩ := (fails_or_ok _).resolve_left hs
  exact ⟨_, resultOf_of_reported h hr stamp level⟩

theorem resultOf_eq_error (h : ¬∃ l, Listing.ofText table file text = .ok l ∧
    ¬Fails (reported l.diagnostics)) (stamp : String) (level : Nat) :
    ∃ e, resultOf stamp level (fun _ => table) file text = .error e := by
  cases hr : resultOf stamp level (fun _ => table) file text
  case error e => exact ⟨e, rfl⟩
  case ok r =>
    have ⟨l, hl, hr⟩ := bind_eq_ok_iff.mp hr
    have ⟨_, _, hr⟩ := bind_eq_ok_iff.mp hr
    have ⟨shown, hs, _⟩ := bind_eq_ok_iff.mp hr
    exact absurd ⟨l, hl, hs ▸ not_fails_ok⟩ h

theorem encodable_ofString (s : String) : Text.Utf8.encodable (.ofString s) = .ok s := by
  simp [Text.Utf8.encodable]

theorem Directory.target_of_placeFor {path : String} {place : List String}
    (h : d.placeFor path = .ok place) :
    ¬path.toList.contains '\x00' ∧ d.target path = .ok place := by
  unfold placeFor at h
  split at h
  case isTrue => contradiction
  case isFalse hz => exact ⟨hz, h⟩

theorem delivers_put {path : String} {place : List String} (hp : path ≠ "")
    (h : d.placeFor path = .ok place) (text : String) :
    Delivers d text (some path) (d.put place (Utf8.encode text)) "" := by
  have ⟨hz, ht⟩ := Directory.target_of_placeFor h
  have hcontent : (d.put place (Utf8.encode text)).content path = .ok (Utf8.encode text) := by
    rw [Directory.content, if_neg hz]
    exact Directory.read_put_of_target ht _
  obtain ⟨_, _, name, parent, _, _, hf, _, _, rfl⟩ := Directory.target_eq_ok ht
  exact .file hp h hcontent (Directory.file?_put_self ..)
    (fun other ho => Directory.file?_put_of_ne ho) (Directory.isFolder_put hf name _)

theorem run_deliver_of_accepts (h : AcceptsOutput d output) (input : List UInt8) (l : Listing)
    (err : String) :
    ∃ out after, Delivers d l.text output after out ∧
      (deliver (host input) output ⟨l, .ofString l.text, err⟩).run d =
        (.finished (if Diagnostic.anyError l.diagnostics then 1 else 0) out err, after) := by
  cases h
  case absent =>
    refine ⟨l.text, d, .absent, ?_⟩
    simp only [deliver, encodable_ofString]
    rfl
  case empty =>
    refine ⟨l.text, d, .empty, ?_⟩
    simp only [deliver, encodable_ofString]
    rfl
  case file path place hp hw =>
    refine ⟨"", _, delivers_put hp hw l.text, ?_⟩
    have hrun := run_write d input path (Utf8.encode l.text)
    rw [hw] at hrun
    simp only [deliver, encodable_ofString, filter_of_ne_empty hp]
    exact run_bind hrun

theorem run_deliver_of_refuses (h : RefusesOutput d output) (input : List UInt8) (r : Result) :
    ∃ err, (deliver (host input) output r).run d = (failed err, d) := by
  cases h
  case intro path code reason hp hw =>
    have hrun (bytes : List UInt8) :
        ((host input).write path bytes).run d = (.error (.refused code reason), d) := by
      rw [run_write, hw]
    simp only [deliver, filter_of_ne_empty hp]
    rw [run_bind (hrun _)]
    exact ⟨_, rfl⟩

theorem accepts_or_refuses (d : Directory) (input : List UInt8) (output : Option String)
    (r : Result) :
    AcceptsOutput d output ∨ RefusesOutput d output ∨
      ∃ fault, (deliver (host input) output r).run d = (.broken fault, d) := by
  cases output
  case none => exact .inl .absent
  case some path =>
    by_cases hp : path = ""
    case pos => exact hp ▸ .inl .empty
    case neg =>
      cases hw : d.placeFor path
      case ok place => exact .inl (.file hp hw)
      case error e =>
        cases e
        case refused code reason => exact .inr <| .inl (.intro hp hw)
        case zeroInPath =>
          have hrun (bytes : List UInt8) :
              ((host input).write path bytes).run d = (.error .zeroInPath, d) := by
            rw [run_write, hw]
          refine .inr <| .inr ⟨.zeroInPath, ?_⟩
          simp only [deliver, filter_of_ne_empty hp]
          rw [run_bind (hrun _)]
          rfl

theorem Delivers.accepts {out : String} (h : Delivers d text output after out) :
    AcceptsOutput d output := by
  cases h
  case absent => exact .absent
  case empty => exact .empty
  case file hp hw _ _ _ _ => exact .file hp hw

end Command

end SvcLens
