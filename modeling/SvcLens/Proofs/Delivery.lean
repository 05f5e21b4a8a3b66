import SvcLens.Proofs.Anchor
import SvcLens.Proofs.Digits
import SvcLens.Proofs.Stage

namespace SvcLens

namespace Listing

variable {table : SyscallTable} {file : Option String} {text : String} {l : Listing}

theorem exists_diagnostics_of_ofText (h : ofText table file text = .ok l) :
    ∃ f, analyze ⟨table, Syscall.standardStreams, true⟩ (.ofText text) = .ok f ∧
      l.diagnostics = f.diagnostics.map fun d => { d with file := file.or d.file } := by
  have ⟨f, hf, hl⟩ := bind_eq_ok_iff.mp h
  obtain rfl := pure_eq_ok_iff.mp hl
  refine ⟨f, hf, ?_⟩
  cases file
  case none => exact (List.map_id _).symm
  case some => rfl

theorem anyError_diagnostics_iff (h : ofText table file text = .ok l) :
    Diagnostic.anyError l.diagnostics ↔
      ∃ line ts, (TokenTable.ofText text).get? line = some ts ∧ Instruction.IsFlawed ts := by
  have ⟨f, hf, hd⟩ := exists_diagnostics_of_ofText h
  rw [← Analysis.anyError_diagnostics_iff rfl hf, hd, Diagnostic.anyError, Diagnostic.anyError,
    List.any_map]
  rfl

theorem not_fails_reported (h : ofText table file text = .ok l)
    (hlen : text.length + 1 < 10 ^ Numeral.maxDigits) :
    ¬Fails (Command.reported l.diagnostics) := by
  have ⟨f, hf, hd⟩ := exists_diagnostics_of_ofText h
  rw [Command.reported, fails_bind_pure_iff, fails_mapM_iff, hd]
  rintro ⟨d, hmem, hfails⟩
  obtain ⟨e, he, rfl⟩ := List.mem_map.mp hmem
  have ⟨n, k, hn, hk, hnle, hkle⟩ := Analysis.exists_position_of_mem rfl hf he
  have ⟨line, hline⟩ := @Numeral.exists_write_eq_ok n (by omega)
  have ⟨column, hcolumn⟩ := @Numeral.exists_write_eq_ok k (by omega)
  simp only [Diagnostic.display, Diagnostic.place, Diagnostic.position, hn, hk, hline, hcolumn]
    at hfails
  exact not_fails_ok hfails

end Listing

namespace Command

open Directory (host)

def Options.file (o : Options) : Option String :=
  if o.source = "-" then none else some o.source

structure Annotates (d : Directory) (input : List UInt8) (o : Options) (text : String)
    (l : Listing) : Prop where
  source  : Sources d input o.source text
  listing : ∃ table, Provides d o.syscalls table ∧ Listing.ofText table o.file text = .ok l
  shown   : ¬Fails (reported l.diagnostics)

-- What a run is refused for: the first of table, source and output that is refused.
inductive Refuses (d : Directory) (input : List UInt8) (o : Options) : Prop
  | table : RefusesTable d o.syscalls → Refuses d input o
  | source {table} : Provides d o.syscalls table → RefusesSource d input o.source →
      Refuses d input o
  | output {text l} : Annotates d input o text l → RefusesOutput d o.output → Refuses d input o

-- A run that does what it was asked to do. Its exit code is one if there is an error among the
-- diagnostics, that is, if the source has a flawed assignment to a tracked register.
inductive Completes (before : Directory) (input : List UInt8) (o : Options) :
    Outcome → Directory → Prop
  | intro {text l exit out err after} : Annotates before input o text l →
      Delivers before (Listing.render text l.hints) o.output after out →
      (exit = if Diagnostic.anyError l.diagnostics then 1 else 0) →
      (exit = 1 ↔ ∃ line ts, (TokenTable.ofText text).get? line = some ts ∧
        Instruction.IsFlawed ts) →
      Completes before input o (.finished exit out err) after

-- What a run leaves behind that does not do what it was asked to do: nothing, with an exit code of
-- two or none at all.
inductive Withdraws (before : Directory) : Outcome → Directory → Prop
  | refused (err : String) : Withdraws before (.finished 2 "" err) before
  | broken (fault : Fault) : Withdraws before (.broken fault) before

variable {d after : Directory} {input : List UInt8} {o : Options} {outcome : Outcome}
variable {table : SyscallTable} {text stamp : String} {level : Nat} {l : Listing}

theorem Completes.exit_ne_two {out err : String} :
    ¬Completes d input o (.finished 2 out err) after := by
  rintro ⟨_, _, he, _⟩
  split at he <;> contradiction

section

variable (hl : threshold o.logLevel = .ok level)
include hl

theorem run_of_table_error (ht : (tableFor (host input) o.syscalls).run d = (.error outcome, d))
    (stamp : String) : (runWith (host input) stamp o).run d = (outcome, d) := by
  simp only [runWith, hl]
  rw [run_bind ht]
  rfl

variable (hs : HasStrictTable d o.syscalls)
include hs

theorem run_of_text_error (ht : Provides d o.syscalls table)
    (hx : (textOf (host input) o.source).run d = (.error outcome, d)) (stamp : String) :
    (runWith (host input) stamp o).run d = (outcome, d) := by
  simp only [runWith, hl]
  rw [run_bind (run_tableFor_of_provides hs ht)]
  simp only
  rw [run_bind hx]
  rfl

-- Up to the output a run changes nothing, so what it has found out can be taken one by one.
theorem run_of_sources (ht : Provides d o.syscalls table) (hx : Sources d input o.source text)
    (stamp : String) :
    (runWith (host input) stamp o).run d =
      match resultOf stamp level (fun _ => table) o.file text with
      | .error e => (.broken (.numeral e), d)
      | .ok r => (deliver (host input) o.output r).run d := by
  simp only [runWith, hl]
  rw [run_bind (run_tableFor_of_provides hs ht)]
  simp only
  rw [run_bind (run_textOf_of_sources hx), Options.file]
  simp only
  cases resultOf stamp level (fun _ => table) (if o.source = "-" then none else some o.source) text
  case error => rfl
  case ok => rfl

theorem run_of_annotates (ha : Annotates d input o text l) (stamp : String) : ∃ err,
    (runWith (host input) stamp o).run d =
      (deliver (host input) o.output ⟨l, .ofString l.text, err⟩).run d := by
  have ⟨table, ht, hf⟩ := ha.listing
  have ⟨err, hr⟩ := resultOf_eq_ok hf ha.shown stamp level
  exact ⟨err, by rw [run_of_sources hl hs ht ha.source, hr]⟩

theorem run_of_refuses (h : Refuses d input o) (stamp : String) :
    ∃ err, (runWith (host input) stamp o).run d = (failed err, d) := by
  cases h
  case table h =>
    have ⟨err, ht⟩ := run_tableFor_of_refuses h input
    exact ⟨err, run_of_table_error hl ht stamp⟩
  case source table ht h =>
    have ⟨err, hx⟩ := run_textOf_of_refuses h
    exact ⟨err, run_of_text_error hl hs ht hx stamp⟩
  case output text l ha h =>
    have ⟨err, hr⟩ := run_of_annotates hl hs ha stamp
    rw [hr]
    exact run_deliver_of_refuses h input _

theorem run_of_accepts (ha : Annotates d input o text l) (h : AcceptsOutput d o.output)
    (stamp : String) :
    ∃ outcome after, (runWith (host input) stamp o).run d = (outcome, after) ∧
      Completes d input o outcome after := by
  have ⟨table, _, hf⟩ := ha.listing
  have ⟨f, _, hh, ht⟩ := Listing.exists_of_ofText hf
  have ⟨err, hr⟩ := run_of_annotates hl hs ha stamp
  have ⟨out, after, hd, hrun⟩ := run_deliver_of_accepts h input l err
  refine ⟨_, after, hr.trans hrun, .intro ha (hh ▸ ht ▸ hd) rfl ?_⟩
  simp [← Listing.anyError_diagnostics_iff hf]

theorem accepts_or_refuses_or_breaks (input : List UInt8) (stamp : String) :
    (∃ text l, Annotates d input o text l ∧ AcceptsOutput d o.output) ∨ Refuses d input o ∨
      ∃ fault, (runWith (host input) stamp o).run d = (.broken fault, d) := by
  rcases provides_or_refuses d input o.syscalls with ⟨table, ht⟩ | h | ⟨fault, h⟩
  case inr.inl => exact .inr (.inl (.table h))
  case inr.inr => exact .inr (.inr ⟨fault, run_of_table_error hl h stamp⟩)
  case inl =>
    rcases sources_or_refuses d input o.source with ⟨text, hx⟩ | h | ⟨fault, h⟩
    case inr.inl => exact .inr (.inl (.source ht h))
    case inr.inr => exact .inr (.inr ⟨fault, run_of_text_error hl hs ht h stamp⟩)
    case inl =>
      by_cases hf : ∃ l, Listing.ofText table o.file text = .ok l ∧ ¬Fails (reported l.diagnostics)
      case neg =>
        have ⟨e, hr⟩ := resultOf_eq_error hf stamp level
        exact .inr (.inr ⟨.numeral e, by rw [run_of_sources hl hs ht hx, hr]⟩)
      case pos =>
        have ⟨l, hf, hshown⟩ := hf
        have ha : Annotates d input o text l := ⟨hx, ⟨table, ht, hf⟩, hshown⟩
        have ⟨err, hr⟩ := run_of_annotates hl hs ha stamp
        rcases accepts_or_refuses d input o.output ⟨l, .ofString l.text, err⟩ with h | h | ⟨e, h⟩
        case inl => exact .inl ⟨text, l, ha, h⟩
        case inr.inl => exact .inr (.inl (.output ha h))
        case inr.inr => exact .inr (.inr ⟨e, hr.trans h⟩)

theorem completes_iff (hrun : (runWith (host input) stamp o).run d = (outcome, after)) :
    Completes d input o outcome after ↔
      ∃ text l, Annotates d input o text l ∧ AcceptsOutput d o.output := by
  constructor
  case mp =>
    rintro ⟨ha, hd, _, _⟩
    exact ⟨_, _, ha, hd.accepts⟩
  case mpr =>
    rintro ⟨text, l, ha, h⟩
    have ⟨_, _, hrun', hc⟩ := run_of_accepts hl hs ha h stamp
    obtain ⟨rfl, rfl⟩ := Prod.mk.inj (hrun.symm.trans hrun')
    exact hc

theorem completes_or_withdraws (hrun : (runWith (host input) stamp o).run d = (outcome, after)) :
    Completes d input o outcome after ∨ Withdraws d outcome after := by
  rcases accepts_or_refuses_or_breaks hl hs input stamp with h | h | ⟨fault, h⟩
  case inl => exact .inl ((completes_iff hl hs hrun).mpr h)
  case inr.inl =>
    have ⟨err, hrun'⟩ := run_of_refuses hl hs h stamp
    obtain ⟨rfl, rfl⟩ := Prod.mk.inj (hrun.symm.trans hrun')
    exact .inr (.refused err)
  case inr.inr =>
    obtain ⟨rfl, rfl⟩ := Prod.mk.inj (hrun.symm.trans h)
    exact .inr (.broken fault)

theorem exit_eq_two_iff (hrun : (runWith (host input) stamp o).run d = (outcome, after)) :
    (∃ out err, outcome = .finished 2 out err) ↔ Refuses d input o := by
  constructor
  case mp =>
    rintro ⟨out, err, rfl⟩
    rcases accepts_or_refuses_or_breaks hl hs input stamp with h | h | ⟨fault, h⟩
    case inl => exact absurd ((completes_iff hl hs hrun).mpr h) Completes.exit_ne_two
    case inr.inl => exact h
    case inr.inr => exact absurd (Prod.mk.inj (hrun.symm.trans h)).left nofun
  case mpr =>
    intro h
    have ⟨err, hrun'⟩ := run_of_refuses hl hs h stamp
    exact ⟨"", err, (Prod.mk.inj (hrun.symm.trans hrun')).left⟩

end

-- A run delivers the whole listing or nothing. It has the exit code two exactly if its table, its
-- source or its output is refused. The diagnostics can be shown unless the text has so many
-- characters that their number cannot be written.
theorem run_completes_or_withdraws {dialect : Dialect} {words : List String}
    (hw : Request.ofWords dialect words = .ok (.run o)) (hl : threshold o.logLevel = .ok level)
    (hs : HasStrictTable d o.syscalls) (input : List UInt8) (stamp : String) :
    ∃ outcome after, (run dialect (host input) stamp words).run d = (outcome, after) ∧
      (Completes d input o outcome after ∨ Withdraws d outcome after) ∧
      ((∃ out err, outcome = .finished 2 out err) ↔ Refuses d input o) ∧
      (Completes d input o outcome after ↔
        ∃ text l, Annotates d input o text l ∧ AcceptsOutput d o.output) ∧
      ∀ table text l, Listing.ofText table o.file text = .ok l →
        text.length + 1 < 10 ^ Numeral.maxDigits → ¬Fails (reported l.diagnostics) := by
  obtain ⟨outcome, after, hrun⟩ : ∃ outcome after,
      (runWith (host input) stamp o).run d = (outcome, after) := ⟨_, _, rfl⟩
  refine ⟨outcome, after, by rw [run, hw]; exact hrun, completes_or_withdraws hl hs hrun,
    exit_eq_two_iff hl hs hrun, completes_iff hl hs hrun, ?_⟩
  exact fun _ _ _ => Listing.not_fails_reported

theorem run_completes_of_overwritten_source :
    let table := Text.Utf8.encode "\x7b\"1\": \x7b\"name\": \"up\"\x7d\x7d"
    let before : Directory :=
      ⟨[(["a.s"], Text.Utf8.encode "mov x8, #1\nmov x0\nsvc #0"), (["t.json"], table)], []⟩
    let after : Directory :=
      ⟨[(["a.s"], Text.Utf8.encode "mov x8, #1  // syscall: up (1)\nmov x0\nsvc #0  // up() → "),
        (["t.json"], table)], []⟩
    let err := "a.s:2:5: ERROR: Asignación mal formada: se esperaba \x27,\x27 tras el registro " ++
      "destino  (pista: forma esperada: mov <registro>, <valor>)\n"
    let written : Directory := ⟨[(["--"], Text.Utf8.encode "svc")], []⟩
    (∃ o, Request.ofWords .late ["a.s", "-o", "a.s", "--syscalls", "t.json"] = .ok (.run o) ∧
      (run .late (host []) "" ["a.s", "-o", "a.s", "--syscalls", "t.json"]).run before =
        (.finished 1 "" err, after) ∧
      Completes before [] o (.finished 1 "" err) after ∧ ¬Refuses before [] o) ∧
    (∃ o, Request.ofWords .late ["-", "-o--"] = .ok (.run o) ∧
      (run .late (host (Text.Utf8.encode "svc")) "" ["-", "-o--"]).run ⟨[], []⟩ =
        (.finished 0 "" "", written) ∧
      Completes ⟨[], []⟩ (Text.Utf8.encode "svc") o (.finished 0 "" "") written) ∧
    ∃ o, Request.ofWords .early ["-", "-o--"] = .ok (.run o) ∧
      (run .early (host (Text.Utf8.encode "svc")) "" ["-", "-o--"]).run ⟨[], []⟩ =
        (.finished 0 "svc" "", ⟨[], []⟩) ∧
      Completes ⟨[], []⟩ (Text.Utf8.encode "svc") o (.finished 0 "svc" "") ⟨[], []⟩ := by
  intro table before after err written
  have hl : threshold none = .ok 30 := by decide +kernel
  have key {dialect : Dialect} {words : List String} {source : String}
      {output syscalls : Option String} {input : List UInt8} {exit : Nat} {out err : String}
      {before after : Directory} (hexit : exit ≠ 2) (hs : HasStrictTable before syscalls)
      (hw : Request.ofWords dialect words = .ok (.run ⟨source, output, syscalls, none⟩))
      (hrun : (run dialect (host input) "" words).run before = (.finished exit out err, after)) :
      Completes before input ⟨source, output, syscalls, none⟩ (.finished exit out err) after ∧
        ¬Refuses before input ⟨source, output, syscalls, none⟩ := by
    have ⟨_, _, hrun', hc, hr, _⟩ := run_completes_or_withdraws hw hl hs input ""
    obtain ⟨rfl, rfl⟩ := Prod.mk.inj (hrun.symm.trans hrun')
    have hw : ¬Withdraws before (.finished exit out err) after := by
      rintro ⟨_⟩
      exact hexit rfl
    exact ⟨hc.resolve_right hw, fun h => absurd (hr.mpr h) (by simp [hexit])⟩
  have hnone : HasStrictTable ⟨[], []⟩ none := fun p hp => nomatch hp
  refine ⟨?_, ?_, ?_⟩
  · have hw : Request.ofWords .late ["a.s", "-o", "a.s", "--syscalls", "t.json"] =
        .ok (.run ⟨"a.s", some "a.s", some "t.json", none⟩) := by decide +kernel
    have hrun : (run .late (host []) "" ["a.s", "-o", "a.s", "--syscalls", "t.json"]).run before =
        (.finished 1 "" err, after) := by
      show @Eq (Outcome × Directory) _ _
      decide +kernel
    exact ⟨_, hw, hrun, key (by decide) (by decide +kernel) hw hrun⟩
  · have hw : Request.ofWords .late ["-", "-o--"] = .ok (.run ⟨"-", some "--", none, none⟩) := by
      decide +kernel
    have hrun : (run .late (host (Text.Utf8.encode "svc")) "" ["-", "-o--"]).run ⟨[], []⟩ =
        (.finished 0 "" "", written) := by
      show @Eq (Outcome × Directory) _ _
      decide +kernel
    exact ⟨_, hw, hrun, (key (by decide) hnone hw hrun).left⟩
  · have hw : Request.ofWords .early ["-", "-o--"] = .ok (.run ⟨"-", none, none, none⟩) := by
      decide +kernel
    have hrun : (run .early (host (Text.Utf8.encode "svc")) "" ["-", "-o--"]).run ⟨[], []⟩ =
        (.finished 0 "svc" "", ⟨[], []⟩) := by
      show @Eq (Outcome × Directory) _ _
      decide +kernel
    exact ⟨_, hw, hrun, (key (by decide) hnone hw hrun).left⟩

end Command

end SvcLens
