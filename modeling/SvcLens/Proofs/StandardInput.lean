import Mathlib.Data.List.Infix
import SvcLens.Proofs.Delivery
import SvcLens.Proofs.Endings

namespace SvcLens

namespace Text

variable {cs : List Char} {l : Line} {ls : List Line}

-- No carriage return stands alone: a line feed follows each of them.
def PairsReturns (cs : List Char) : Prop :=
  ∀ k, cs[k]? = some '\r' → cs[k + 1]? = some '\n'

instance (cs : List Char) : Decidable (PairsReturns cs) :=
  decidable_of_iff (∀ k < cs.length, cs[k]? = some '\r' → cs[k + 1]? = some '\n')
    ⟨fun h k hk => h k (List.getElem?_eq_some_iff.mp hk).choose hk, fun h k _ => h k⟩

def mergePairs : List Char → List Char
  | [] => []
  | '\r' :: '\n' :: cs => '\n' :: mergePairs cs
  | c :: cs => c :: mergePairs cs

def Line.withFeed (l : Line) : Line :=
  { l with ending := if l.ending = .crlf then .lf else l.ending }

theorem PairsReturns.tail {c : Char} (h : PairsReturns (c :: cs)) : PairsReturns cs :=
  fun k hk => h (k + 1) hk

theorem PairsReturns.head (h : PairsReturns ('\r' :: cs)) : ∃ rest, cs = '\n' :: rest :=
  List.head?_eq_some_iff.mp (by simpa [List.head?_eq_getElem?] using h 0 rfl)

-- Where no carriage return stands alone, unifying breaks merges the pairs and nothing else.
theorem unifyBreaks_eq_mergePairs (h : PairsReturns cs) : unifyBreaks cs = mergePairs cs := by
  fun_induction unifyBreaks cs
  case case1 => rfl
  case case2 cs ih => rw [mergePairs, ih h.tail.tail]
  case case3 cs hn _ =>
    obtain ⟨rest, rfl⟩ := h.head
    exact absurd rfl (hn rest)
  case case4 c cs _ hc ih =>
    rw [mergePairs, ih h.tail]
    rintro rest rfl
    contradiction

theorem map_withFeed_consChar (c : Char) (ls : List Line) :
    (consChar c ls).map Line.withFeed = consChar c (ls.map Line.withFeed) := by
  cases ls <;> rfl

theorem mergePairs_eq_joinLines (cs : List Char) :
    mergePairs cs = joinLines ((splitLines cs).map Line.withFeed) := by
  fun_induction splitLines cs
  case case1 => rfl
  case case2 cs ih =>
    rw [mergePairs, ih]
    rfl
  case case3 cs ih =>
    rw [mergePairs, ih]
    · rfl
    · simp
  case case4 c cs hr _ ih =>
    rw [mergePairs, ih, map_withFeed_consChar, joinLines_consChar]
    exact hr

theorem return_notMem_of_mem_splitLines (h : PairsReturns cs) (hl : l ∈ splitLines cs) :
    '\r' ∉ l.chars := by
  fun_induction splitLines cs generalizing l
  case case1 => simp_all
  case case2 ih =>
    cases List.mem_cons.mp hl
    case inl hl => simp [hl]
    case inr hl => exact ih h.tail.tail hl
  case case3 ih =>
    cases List.mem_cons.mp hl
    case inl hl => simp [hl]
    case inr hl => exact ih h.tail hl
  case case4 c cs hr _ ih =>
    have hc : c ≠ '\r' := by
      rintro rfl
      obtain ⟨rest, rfl⟩ := h.head
      exact hr rest rfl rfl
    obtain ⟨m, hm, hchars⟩ := exists_of_mem_consChar (splitLines_ne_nil cs) hl
    intro hn
    cases hchars _ hn
    case inl hn => exact hc hn.symm
    case inr hn => exact ih h.tail hm hn

theorem separable_splitLines (h : PairsReturns cs) : Separable (splitLines cs) where
  complete := complete_splitLines cs
  noFeed _ := lf_notMem_of_mem_splitLines
  noReturn _ hl hr :=
    return_notMem_of_mem_splitLines h (List.mem_of_mem_dropLast hl) (List.mem_of_getLast? hr)

theorem Complete.map_withFeed (h : Complete ls) : Complete (ls.map Line.withFeed) := by
  induction h
  case last l hl => exact .last (by simp [Line.withFeed, hl])
  case cons l ls hl _ ih =>
    refine .cons ?_ ih
    simp only [Line.withFeed]
    split <;> simp_all

theorem sameChars_map_withFeed (ls : List Line) : SameChars ls (ls.map Line.withFeed) := by
  simp [SameChars, Line.withFeed]

theorem separable_map_withFeed (h : PairsReturns cs) :
    Separable ((splitLines cs).map Line.withFeed) :=
  (separable_splitLines h).of_sameChars (complete_splitLines cs).map_withFeed
    (sameChars_map_withFeed _)

-- A text that does not end in a carriage return, so that a line feed behind it is a break alone.
def IsSettled (s : String) : Prop :=
  s.toList.getLast? ≠ some '\r'

instance (s : String) : Decidable (IsSettled s) :=
  inferInstanceAs (Decidable (s.toList.getLast? ≠ some '\r'))

theorem isSettled_append {s t : String} (ht : IsSettled t) (hs : t = "" → IsSettled s) :
    IsSettled (s ++ t) := by
  by_cases he : t = ""
  case pos => simpa [he] using hs he
  case neg =>
    have hne : t.toList ≠ [] := by simpa using he
    rwa [IsSettled, String.toList_append, List.getLast?_append_of_ne_nil _ hne]

theorem isSettled_intercalate {s : String} {ss : List String} (hs : IsSettled s ∧ s ≠ "")
    (h : ∀ t ∈ ss, IsSettled t) : IsSettled (s.intercalate ss) := by
  induction ss
  case nil => simp [IsSettled]
  case cons t ss ih =>
    obtain ⟨ht, hss⟩ := List.forall_mem_cons.mp h
    cases ss
    case nil => simpa using ht
    case cons =>
      rw [String.intercalate_cons_of_ne_nil (by simp)]
      exact isSettled_append (ih hss) fun _ => isSettled_append hs.left fun he => absurd he hs.right

end Text

namespace Analysis

variable {c : Context} {e : Int × Hint} {text : String}

structure Context.IsSettled (c : Context) : Prop where
  returns     : ∀ n s, c.syscalls.get? n = some s → Text.IsSettled s.returns
  descriptors : ∀ n name, c.descriptors.get? n = some name → Text.IsSettled name

theorem isSettled_valueText (hc : c.IsSettled) {value : String} (hv : Text.IsSettled value)
    (role : String) : Text.IsSettled (valueText c.descriptors role value) := by
  rcases valueText_eq_or c.descriptors role value with h | ⟨k, h⟩
  case inl => rwa [h]
  case inr => exact hc.descriptors k _ h

theorem isSettled_of_mem_events (hc : c.IsSettled) (h : e ∈ events c (.ofText text)) :
    Text.IsSettled e.2.label := by
  obtain ⟨⟨line, ts⟩, _, he⟩ := List.mem_flatMap.mp h
  rcases mem_eventsAt he with ⟨_, rfl⟩ | ⟨_, set, n, s, _, hs, he⟩
  case inl =>
    show Text.IsSettled foreignTrapHint.label
    decide
  case inr =>
    simp only [callEvents, List.mem_append, List.mem_cons, List.mem_flatMap, List.not_mem_nil,
      or_false] at he
    rcases he with (rfl | ⟨a, _, he⟩) | rfl
    case inl.inl => exact Text.isSettled_append (by decide) (by simp)
    case inr => exact Text.isSettled_append (hc.returns n s hs) fun _ =>
      Text.isSettled_append (by decide) (by simp)
    case inl.inr =>
      obtain ⟨arg, harg, _, hlabel⟩ := mem_argumentEvents he
      obtain ⟨r, _, hr⟩ := Option.bind_eq_some_iff.mp harg
      have hvalue : Text.IsSettled arg.value := fun hl =>
        TokenTable.separator_notMem_of_lastBefore hr rfl (List.mem_of_getLast? hl)
      rw [hlabel]
      exact Text.isSettled_append (isSettled_valueText hc hvalue a.name) fun _ =>
        Text.isSettled_append (by decide) (by simp)

theorem isSettled_linux (reporting : Bool) :
    Context.IsSettled ⟨Syscall.linux, Syscall.standardStreams, reporting⟩ where
  returns n s h := by
    have hall : ∀ e ∈ Syscall.linux.entries, Text.IsSettled e.2.returns := by decide +kernel
    exact hall (n, _) (IntMap.get?_eq_some_iff.mp h)
  descriptors n name h := by
    have hall : ∀ e ∈ Syscall.standardStreams.entries, Text.IsSettled e.2 := by decide +kernel
    exact hall (n, _) (IntMap.get?_eq_some_iff.mp h)

end Analysis

namespace Listing

variable {hints : HintTable} {hs : List Hint} {text : String} {ls : List Text.Line}

structure KeepsBreaks (hints : HintTable) : Prop where
  oneLine : ∀ n, ∀ x ∈ hints.onLine n, Text.IsOneLine x.label
  settled : ∀ n, ∀ x ∈ hints.onLine n, Text.IsSettled x.label

theorem getLast?_suffix_ne (h : ∀ x ∈ hs, Text.IsSettled x.label) :
    (suffix hs).getLast? ≠ some '\r' := by
  unfold suffix
  split
  case isTrue => simp
  case isFalse =>
    have hlabels := Text.isSettled_intercalate (s := "; ") (by decide) (List.forall_mem_map.mpr h)
    exact Text.isSettled_append hlabels fun _ => by decide

theorem separable_annotated (h : Text.Separable ls) (hk : KeepsBreaks hints) :
    Text.Separable (annotated hints ls) where
  complete := h.complete.mapIdx fun _ _ => rfl
  noFeed l hl := by
    obtain ⟨k, hlt, hl⟩ := List.mem_mapIdx.mp hl
    rw [← hl, annotate, List.mem_append, not_or]
    exact ⟨h.noFeed _ (List.getElem_mem hlt), lf_notMem_suffix (hk.oneLine k)⟩
  noReturn l hl := by
    obtain ⟨k, hlt, hl⟩ := List.mem_iff_getElem.mp hl
    have hlt' : k < ls.dropLast.length := by simpa [annotated] using hlt
    have hline := h.noReturn _ (List.getElem_mem hlt')
    rw [List.getElem_dropLast] at hl hline
    simp only [annotated, List.getElem_mapIdx, annotate] at hl
    rw [← hl, List.getLast?_append]
    cases hs : (suffix (hints.onLine k)).getLast?
    case none => simpa using hline
    case some c =>
      have := getLast?_suffix_ne (hk.settled k)
      simp_all

theorem annotated_map_withFeed (hints : HintTable) (ls : List Text.Line) :
    annotated hints (ls.map Text.Line.withFeed) = (annotated hints ls).map Text.Line.withFeed := by
  refine List.ext_getElem? fun k => ?_
  cases h : ls[k]? <;> simp [annotated, annotate, Text.Line.withFeed, h]

theorem render_mergePairs (h : Text.PairsReturns text.toList) (hk : KeepsBreaks hints) :
    render (String.ofList (Text.mergePairs text.toList)) hints =
      String.ofList (Text.mergePairs (render text hints).toList) := by
  have hls := Text.separable_splitLines h
  have hrender : render text hints = Text.ofLines (annotated hints (Text.splitLines text.toList)) :=
    rfl
  rw [Text.mergePairs_eq_joinLines, Text.mergePairs_eq_joinLines, hrender,
    (separable_annotated hls hk).splitLines_ofLines, ← annotated_map_withFeed]
  exact render_ofLines (Text.separable_map_withFeed h) hints

theorem ofText_mergePairs (h : Text.PairsReturns text.toList) :
    TokenTable.ofText (String.ofList (Text.mergePairs text.toList)) = TokenTable.ofText text := by
  have htokens := TokenTable.ofText_ofLines_congr (Text.separable_splitLines h)
    (Text.separable_map_withFeed h) (Text.sameChars_map_withFeed _)
  rw [Text.ofLines_splitLines] at htokens
  rw [Text.mergePairs_eq_joinLines]
  exact htokens.symm

theorem ofText_of_analyze {table : SyscallTable} {f : Analysis.Findings}
    (h : analyze ⟨table, Syscall.standardStreams, true⟩ (.ofText text) = .ok f)
    (file : Option String) :
    ∃ l, ofText table file text = .ok l ∧ l.text = render text f.hintTable ∧
      l.diagnostics = f.diagnostics.map fun d => { d with file := file.or d.file } := by
  refine ⟨_, bind_eq_ok_iff.mpr ⟨f, h, rfl⟩, rfl, ?_⟩
  cases file
  case none => exact (List.map_id _).symm
  case some => rfl

theorem keepsBreaks_of_analyze {c : Analysis.Context} {f : Analysis.Findings} (ho : c.IsOneLine)
    (hs : c.IsSettled) (h : analyze c (.ofText text) = .ok f) : KeepsBreaks f.hintTable where
  oneLine n x hx := (fits_hintTable ho h n x hx).label
  settled n x hx := by
    rw [Analysis.Findings.hintTable, HintTable.onLine_ofEvents,
      Analysis.hints_of_analyze_eq_ok h] at hx
    obtain ⟨e, he, rfl⟩ := List.mem_map.mp hx
    exact Analysis.isSettled_of_mem_events hs (List.mem_of_mem_filter he)

end Listing

namespace Diagnostic

variable {d : Diagnostic}

structure IsUnfiled (d : Diagnostic) : Prop where
  file     : d.file = none
  position : ∃ n k, d.line = some n ∧ d.column = some k

theorem display_file (h : d.IsUnfiled) (f : String) :
    ({ d with file := some f } : Diagnostic).display = d.display.map fun s => f ++ ":" ++ s := by
  have ⟨n, k, hn, hk⟩ := h.position
  simp only [display, place, position, h.file, hn, hk]
  cases Numeral.write n
  case error => rfl
  case ok line =>
    cases Numeral.write k
    case error => rfl
    case ok column => simp [bind, Except.bind, pure, Except.pure, Except.map, String.append_assoc]

end Diagnostic

theorem Analysis.isUnfiled_of_mem {c : Context} {tokens : TokenTable} {f : Findings}
    {d : Diagnostic} (hr : c.reporting) (h : analyze c tokens = .ok f) (hd : d ∈ f.diagnostics) :
    d.IsUnfiled := by
  obtain ⟨line, ts, _, hd⟩ := (mem_diagnostics_iff hr h).mp hd
  rcases hd with ⟨problem, culprit, _, hd⟩ | ⟨_, set, _, hd⟩
  case inl =>
    simp only [malformed, hr, if_true, List.mem_singleton] at hd
    exact hd ▸ ⟨rfl, _, _, rfl, rfl⟩
  case inr =>
    unfold callReport at hd
    repeat' split at hd
    all_goals simp at hd
    all_goals exact hd ▸ ⟨rfl, _, _, rfl, rfl⟩

theorem mapM_display_file {ds : List Diagnostic} (h : ∀ d ∈ ds, d.IsUnfiled) (f : String) :
    (ds.map fun d => { d with file := some f }).mapM Diagnostic.display =
      (ds.mapM Diagnostic.display).map (List.map fun s => f ++ ":" ++ s) := by
  induction ds
  case nil => rfl
  case cons d ds ih =>
    obtain ⟨hd, hds⟩ := List.forall_mem_cons.mp h
    rw [List.map_cons, List.mapM_cons, List.mapM_cons, ih hds, Diagnostic.display_file hd]
    cases d.display
    case error => rfl
    case ok => cases ds.mapM Diagnostic.display <;> rfl

namespace Command

open Directory (host)

variable {d d' : Directory} {input bytes : List UInt8} {words : List String}
variable {source text f stamp : String} {file : Option String}

def plainAnswer (file : Option String) (text : String) : Outcome :=
  match Listing.ofText Syscall.linux file text with
  | .error e => .broken (.numeral e)
  | .ok l =>
    match reported l.diagnostics with
    | .error e => .broken (.numeral e)
    | .ok err => .finished (if Diagnostic.anyError l.diagnostics then 1 else 0) l.text err

theorem ofWords_singleton (dialect : Dialect) (h : f.toList.head? ≠ some '-') :
    Request.ofWords dialect [f] = .ok (.run ⟨f, none, none, none⟩) := by
  have hf : f ≠ "--" := by
    rintro rfl
    exact h rfl
  have hword : wordOf f = .ok (.plain f) := by
    unfold wordOf
    split <;> simp_all
  simp only [Request.ofWords, sortWords, hf, if_false, hword]
  rfl

theorem logged_warnings (stamp : String) (trace : List Trace) : logged stamp 30 trace = "" := by
  have hnone : trace.filter (fun t => 30 ≤ t.level.weight) = [] := by
    refine List.filter_eq_nil_iff.mpr fun t _ => ?_
    cases t <;> simp [Trace.level, Trace.Level.weight]
  simp [logged, hnone]

theorem run_of_no_options {dialect : Dialect}
    (hw : Request.ofWords dialect words = .ok (.run ⟨source, none, none, none⟩))
    (hx : Sources d input source text) (stamp : String) :
    (run dialect (host input) stamp words).run d =
      (plainAnswer (if source = "-" then none else some source) text, d) := by
  have hl : threshold none = .ok 30 := by decide +kernel
  have hs : HasStrictTable d none := fun p hp => nomatch hp
  have hrun := @run_of_sources d input ⟨source, none, none, none⟩ _ _ _ hl hs .absent hx stamp
  rw [run, hw]
  simp only [hrun, Options.file, plainAnswer]
  cases hf : Listing.ofText Syscall.linux (if source = "-" then none else some source) text
  case error e =>
    have hresult : resultOf stamp 30 (fun _ => Syscall.linux) _ text = .error e :=
      bind_eq_error_iff.mpr (.inl hf)
    rw [hresult]
  case ok l =>
    cases hr : reported l.diagnostics
    case error e =>
      have hresult : resultOf stamp 30 (fun _ => Syscall.linux) _ text = .error e :=
        bind_eq_error_iff.mpr <| .inr ⟨l, hf, bind_eq_error_iff.mpr <| .inr ⟨l, hf,
          bind_eq_error_iff.mpr <| .inl hr⟩⟩
      simp only [hresult, hr]
    case ok err =>
      rw [resultOf_of_reported hf hr, logged_warnings, String.empty_append]
      simp only [deliver, encodable_ofString, hr]
      rfl

-- The answers to one text, in a file and on the standard input. The listings differ in the breaks,
-- and what is shown of the diagnostics differs in the name of the file in front.
inductive SameAnswer (text f : String) : Outcome → Outcome → Prop
  | finished {l : Listing} {shown : List String} {exit : Nat} :
      Listing.ofText Syscall.linux none text = .ok l →
      l.diagnostics.mapM Diagnostic.display = .ok shown →
      (exit = if Diagnostic.anyError l.diagnostics then 1 else 0) →
      SameAnswer text f
        (.finished exit l.text (String.join (shown.map fun s => f ++ ":" ++ s ++ "\n")))
        (.finished exit (String.ofList (Text.mergePairs l.text.toList))
          (String.join (shown.map fun s => s ++ "\n")))
  | broken (fault : Fault) : SameAnswer text f (.broken fault) (.broken fault)

theorem sameAnswer_plainAnswer (h : Text.PairsReturns text.toList) (f : String) :
    SameAnswer text f (plainAnswer (some f) text)
      (plainAnswer none (String.ofList (Text.mergePairs text.toList))) := by
  have htokens := Listing.ofText_mergePairs h
  cases hf : analyze ⟨Syscall.linux, Syscall.standardStreams, true⟩ (.ofText text)
  case error e =>
    simp only [plainAnswer, Listing.ofText, htokens, hf]
    exact .broken _
  case ok found =>
    have hkeeps := Listing.keepsBreaks_of_analyze
      ⟨Syscall.isOneLine_linux, fun n name => Syscall.isOneLine_standardStreams⟩
      (Analysis.isSettled_linux true) hf
    have hfiled := mapM_display_file (fun d => Analysis.isUnfiled_of_mem rfl hf) f
    have hplain : found.diagnostics.map (fun d => { d with file := none.or d.file }) =
        found.diagnostics := List.map_id _
    have herror (ds : List Diagnostic) : Diagnostic.anyError
        (ds.map fun d => { d with file := some f }) = Diagnostic.anyError ds := by
      rw [Diagnostic.anyError, List.any_map]
      rfl
    have hmerged := hf
    rw [← htokens] at hmerged
    obtain ⟨l, hl, hltext, hlds⟩ := Listing.ofText_of_analyze hf (some f)
    obtain ⟨m, hm, hmtext, hmds⟩ := Listing.ofText_of_analyze hmerged none
    obtain ⟨n, hn, hntext, hnds⟩ := Listing.ofText_of_analyze hf none
    rw [Listing.render_mergePairs h hkeeps, ← hntext] at hmtext
    rw [← hntext] at hltext
    rw [hplain] at hmds hnds
    simp only [plainAnswer, hl, hm, reported, hlds, hmds, hltext, hmtext, Option.some_or, hfiled,
      herror]
    cases hs : found.diagnostics.mapM Diagnostic.display
    case error e => exact .broken _
    case ok shown =>
      have := @SameAnswer.finished text f n shown _ hn (hnds ▸ hs) rfl
      rw [hnds] at this
      simpa [bind, Except.bind, pure, Except.pure, Except.map, Function.comp_def] using this

theorem SameAnswer.exists_finished {exit : Nat} {out err : String} {o : Outcome}
    (h : SameAnswer text f (.finished exit out err) o) :
    ∃ err', o = .finished exit (String.ofList (Text.mergePairs out.toList)) err' := by
  cases h
  exact ⟨_, rfl⟩

-- A source gives the same answer on the standard input as in a file, up to the breaks of the
-- listing and the name of the file, or both runs break off at the same fault. Nothing is changed by
-- either.
theorem run_input_sameAnswer_run_file (dialect : Dialect) (hf : f.toList.head? ≠ some '-')
    (hc : d.content f = .ok bytes) (ht : Text.Utf8.decode bytes = .ok text)
    (hp : Text.PairsReturns text.toList) (d' : Directory) (input : List UInt8)
    (stamp stamp' : String) :
    ∃ o o', (run dialect (host input) stamp [f]).run d = (o, d) ∧
      (run dialect (host bytes) stamp' ["-"]).run d' = (o', d') ∧ SameAnswer text f o o' := by
  have hdash : f ≠ "-" := by
    rintro rfl
    exact hf rfl
  have hw : Request.ofWords dialect ["-"] = .ok (.run ⟨"-", none, none, none⟩) := by
    cases dialect <;> decide +kernel
  have hfile := @run_of_no_options d input _ _ _ _ (ofWords_singleton dialect hf)
    (.file hdash hc ht) stamp
  have hinput := @run_of_no_options d' bytes _ _ _ _ hw (.input ht) stamp'
  rw [if_neg hdash] at hfile
  rw [if_pos rfl, Text.unifyBreaks_eq_mergePairs hp] at hinput
  exact ⟨_, _, hfile, hinput, sameAnswer_plainAnswer hp f⟩

theorem run_input_sameAnswer_run_file_of_open_string :
    let text := "mov x8, #172 \x27pid\r\nsvc #0\nmov x0\r\n"
    let bytes := Text.Utf8.encode text
    let d : Directory := ⟨[(["a.s"], bytes)], []⟩
    let answer : Outcome := .finished 1
      ("mov x8, #172 \x27pid  // syscall: getpid (172)\r\n" ++
        "svc #0  // getpid() → pid of the caller\nmov x0\r\n")
      ("a.s:3:5: ERROR: Asignación mal formada: se esperaba \x27,\x27 tras el registro destino" ++
        "  (pista: forma esperada: mov <registro>, <valor>)\n")
    d.content "a.s" = .ok bytes ∧ Text.Utf8.decode bytes = .ok text ∧
      Text.PairsReturns text.toList ∧ (run .late (host []) "" ["a.s"]).run d = (answer, d) ∧
      ∃ o', (run .late (host bytes) "" ["-"]).run d = (o', d) ∧ SameAnswer text "a.s" answer o' ∧
        ∃ err', o' = .finished 1
          ("mov x8, #172 \x27pid  // syscall: getpid (172)\n" ++
            "svc #0  // getpid() → pid of the caller\nmov x0\n") err' := by
  intro text bytes d answer
  have hc : d.content "a.s" = .ok bytes := by decide +kernel
  have ht : Text.Utf8.decode bytes = .ok text := by decide +kernel
  have hp : Text.PairsReturns text.toList := by decide +kernel
  have hfile : (run .late (host []) "" ["a.s"]).run d = (answer, d) := by
    have hplain : plainAnswer (some "a.s") text = answer := by decide +kernel
    rw [← hplain]
    exact run_of_no_options (ofWords_singleton .late (by decide)) (.file (by decide) hc ht) ""
  have ⟨o, o', ho, ho', hsame⟩ := run_input_sameAnswer_run_file .late (by decide) hc ht hp d []
    "" ""
  obtain rfl := (Prod.mk.inj (hfile.symm.trans ho)).left
  have ⟨err', h⟩ := hsame.exists_finished
  refine ⟨hc, ht, hp, hfile, o', ho', hsame, err', h.trans ?_⟩
  exact congrArg (Outcome.finished 1 · err') (by decide +kernel)

end Command

end SvcLens
