import SvcLens.Document
import SvcLens.Proofs.Oversize
import SvcLens.Proofs.Overwrite

namespace SvcLens

namespace Analysis

variable {c : Context} {rs : Registers} {line : Int} {set : Assignment}
variable {tokens : TokenTable} {f : Findings}

theorem fails_call_of_silent (h : Fails (call { c with reporting := false } rs line set)) :
    Fails (call c rs line set) := by
  rw [fails_call_iff] at h ⊢
  refine h.imp_right ?_
  rintro ⟨n, hn, ⟨hw, hs⟩ | ha⟩
  · exact ⟨n, hn, .inl ⟨hw, hs.imp_right fun hr => nomatch hr⟩⟩
  · exact ⟨n, hn, .inr ha⟩

theorem exists_analyze_silent (h : analyze c tokens = .ok f) :
    ∃ g, analyze { c with reporting := false } tokens = .ok g ∧ g.hints = f.hints := by
  have hg : ¬Fails (analyze { c with reporting := false } tokens) := by
    intro hf
    obtain ⟨line, ts, set, hts, hc, hset, hf⟩ := fails_analyze_iff.mp hf
    have hf := fails_analyze_iff.mpr ⟨line, ts, set, hts, hc, hset, fails_call_of_silent hf⟩
    exact not_fails_ok (h ▸ hf)
  obtain ⟨g, hg⟩ := not_fails_iff.mp hg
  refine ⟨g, hg, ?_⟩
  rw [hints_of_analyze_eq_ok hg, hints_of_analyze_eq_ok h]
  rfl

end Analysis

namespace Document

variable {d : Document}

-- Where a document comes from: the uri it was opened with, the version it was opened with and those
-- that came with the updates since, and the text that came last.
structure Lineage where
  uri : String
  versions : List (Option Int)
  text : String

-- The last version that was given, and one more for each update after it that came without one.
def Lineage.Reaches (l : Lineage) (version : Int) : Prop :=
  ∃ earlier last later, l.versions = earlier ++ some last :: List.replicate later none ∧
    version = last + later

def Lineage.extend (l : Lineage) (version : Option Int) (text : String) : Lineage :=
  ⟨l.uri, l.versions ++ [version], text⟩

theorem Lineage.Reaches.extend {l : Lineage} {n : Int} (h : l.Reaches n) (version : Option Int)
    (text : String) : (l.extend version text).Reaches (version.getD (n + 1)) := by
  cases version
  case some v => exact ⟨l.versions, v, 0, rfl, by simp⟩
  case none =>
    obtain ⟨earlier, last, later, hl, rfl⟩ := h
    refine ⟨earlier, last, later + 1, ?_, ?_⟩
    · simp [Lineage.extend, hl, List.replicate_succ']
    · simp [Int.add_assoc]

structure Stems (d : Document) (l : Lineage) : Prop where
  uri : d.uri = l.uri
  version : l.Reaches d.version
  text : d.text = l.text
  tokens : d.tokens = .ofText d.text

theorem stems_ofText (uri text : String) (version : Int) :
    (Document.ofText uri text version).Stems ⟨uri, [some version], text⟩ :=
  ⟨rfl, ⟨[], version, 0, rfl, by simp [ofText]⟩, rfl, rfl⟩

theorem Stems.update {l : Lineage} (h : d.Stems l) (text : String) (version : Option Int) :
    (d.update text version).Stems (l.extend version text) :=
  ⟨h.uri, h.version.extend version text, rfl, rfl⟩

theorem findings_eq_ofText (h : d.tokens = .ofText d.text) (syscalls : SyscallTable) :
    (d.findings syscalls true).map
        (fun f => (Listing.render d.text f.hintTable, f.hintTable, f.diagnostics)) =
      (Listing.ofText syscalls none d.text).map fun l => (l.text, l.hints, l.diagnostics) := by
  rw [findings, h, Listing.ofText]
  cases analyze ⟨syscalls, Syscall.standardStreams, true⟩ (.ofText d.text) <;> rfl

end Document

namespace Workspace

open Document (Lineage)

def Stores (w : Workspace) (name : String) : Request → Prop
  | .change (.opened target ..) => target = name
  | .change (.updated source _ _ target) => target = name ∧ (w.get? source).isSome
  | .ask .. => False

inductive Descends : List Request → String → Lineage → Prop
  | opened (history : List Request) (name uri text : String) (version : Int) :
      Descends (history ++ [.change (.opened name uri text version)]) name
        ⟨uri, [some version], text⟩
  | updated {history : List Request} {source : String} {l : Lineage} (text : String)
      (version : Option Int) (target : String) : Descends history source l →
      Descends (history ++ [.change (.updated source text version target)]) target
        (l.extend version text)
  | kept {history : List Request} {name : String} {l : Lineage} {r : Request} :
      Descends history name l → ¬(ofRequests history).Stores name r →
      Descends (history ++ [r]) name l

variable {w : Workspace} {name source : String} {d : Document} {r : Request} {l : Lineage}
variable {history : List Request}

@[simp]
theorem get?_put (w : Workspace) (name other : String) (d : Document) :
    (w.put name d).get? other = if other = name then some d else w.get? other := by
  split
  case isTrue h => simp [put, get?, h]
  case isFalse h =>
    have ho : (other == name) = false := beq_false_of_ne h
    simp only [put, get?, List.lookup_cons, ho]
    exact Command.Directory.lookup_filter_ne h w.documents

theorem Stores.target?_eq (h : w.Stores name r) : r.target? = some name := by
  match r, h with
  | .change (.opened ..), h => exact congrArg some h
  | .change (.updated ..), h => exact congrArg some h.left

theorem get?_serve_of_not_stores (h : ¬w.Stores name r) :
    (w.serve r).1.get? name = w.get? name := by
  match r with
  | .ask .. => rfl
  | .change (.opened ..) => simp [serve, after, Ne.symm h]
  | .change (.updated source _ _ target) =>
    simp only [serve, after]
    split
    case h_1 => rfl
    case h_2 d hd =>
      have hn : name ≠ target := fun e => h ⟨e.symm, by simp [hd]⟩
      simp [hn]

theorem get?_serve_opened (w : Workspace) (name uri text : String) (version : Int) :
    (w.serve (.change (.opened name uri text version))).1.get? name =
      some (.ofText uri text version) := by
  simp [serve, after]

theorem get?_serve_updated (h : w.get? source = some d) (text target : String)
    (version : Option Int) :
    (w.serve (.change (.updated source text version target))).1.get? target =
      some (d.update text version) := by
  simp [serve, after, h]

theorem ofRequests_concat (history : List Request) (r : Request) :
    ofRequests (history ++ [r]) = ((ofRequests history).serve r).1 := by
  simp [ofRequests]

theorem Descends.exists_stems (h : Descends history name l) :
    ∃ d, (ofRequests history).get? name = some d ∧ d.Stems l := by
  induction h
  case opened history name uri text version =>
    rw [ofRequests_concat, get?_serve_opened]
    exact ⟨_, rfl, Document.stems_ofText uri text version⟩
  case updated text version target _ ih =>
    have ⟨d, hd, hl⟩ := ih
    rw [ofRequests_concat, get?_serve_updated hd]
    exact ⟨_, rfl, hl.update text version⟩
  case kept hs ih =>
    rw [ofRequests_concat, get?_serve_of_not_stores hs]
    exact ih

-- One request: a document that it leaves as it was keeps its lineage, one that it stores has the
-- lineage of what it was made from.
theorem exists_descends_concat
    (h : ∀ name d, (ofRequests history).get? name = some d → ∃ l, Descends history name l)
    (hd : (ofRequests (history ++ [r])).get? name = some d) :
    ∃ l, Descends (history ++ [r]) name l := by
  rw [ofRequests_concat] at hd
  by_cases hs : (ofRequests history).Stores name r
  case neg =>
    rw [get?_serve_of_not_stores hs] at hd
    have ⟨l, hl⟩ := h name d hd
    exact ⟨l, hl.kept hs⟩
  case pos =>
    match r, hs with
    | .change (.opened _ uri text version), rfl => exact ⟨_, .opened history name uri text version⟩
    | .change (.updated source text version _), ⟨rfl, hsource⟩ =>
      have ⟨d, hd⟩ := Option.isSome_iff_exists.mp hsource
      have ⟨l, hl⟩ := h source d hd
      exact ⟨_, hl.updated text version name⟩

theorem exists_descends (h : (ofRequests history).get? name = some d) :
    ∃ l, Descends history name l := by
  induction history using List.reverseRecOn generalizing name d
  case nil => nomatch h
  case append_singleton history r ih => exact exists_descends_concat (fun _ _ => ih) h

structure Consistent (history : List Request) (name : String) (d : Document) : Prop where
  descends : ∃ l, Descends history name l
  stems : ∀ l, Descends history name l → d.Stems l
  tokens : d.tokens = .ofText d.text
  listing : ∀ syscalls, (d.findings syscalls true).map
      (fun f => (Listing.render d.text f.hintTable, f.hintTable, f.diagnostics)) =
    (Listing.ofText syscalls none d.text).map fun l => (l.text, l.hints, l.diagnostics)
  silent : ∀ syscalls f, d.findings syscalls true = .ok f →
    ∃ g, d.findings syscalls false = .ok g ∧ g.hintTable = f.hintTable

theorem consistent_of_get? (h : (ofRequests history).get? name = some d) :
    Consistent history name d := by
  have ⟨l, hl⟩ := exists_descends h
  have stems (l : Lineage) (hl : Descends history name l) : d.Stems l := by
    have ⟨d', hd', hs⟩ := hl.exists_stems
    exact Option.some.inj (h.symm.trans hd') ▸ hs
  have tokens := (stems l hl).tokens
  refine ⟨⟨l, hl⟩, stems, tokens, Document.findings_eq_ofText tokens, fun syscalls f hf => ?_⟩
  have ⟨g, hg, hh⟩ := Analysis.exists_analyze_silent hf
  exact ⟨g, hg, congrArg HintTable.ofEvents hh⟩

-- After any requests the open documents are consistent, those and only those are open that have a
-- lineage, and one more request changes at most the document under its target.
theorem consistent_ofRequests (history : List Request) :
    (∀ name d, (ofRequests history).get? name = some d → Consistent history name d) ∧
    (∀ name l, Descends history name l → ((ofRequests history).get? name).isSome) ∧
    (∀ r name, r.target? ≠ some name →
      (ofRequests (history ++ [r])).get? name = (ofRequests history).get? name) := by
  refine ⟨fun _ _ => consistent_of_get?, fun name l h => ?_, fun r name h => ?_⟩
  · have ⟨d, hd, _⟩ := h.exists_stems
    simp [hd]
  · rw [ofRequests_concat, get?_serve_of_not_stores fun hs => h hs.target?_eq]

theorem consistent_ofRequests_of_copy :
    let history : List Request := [
      .change (.opened "a" "file:a" "mov x8, #64\nsvc #0" 5),
      .change (.updated "a" "svc #0" none "b"),
      .change (.updated "a" "nop" (some 2) "a"),
      .change (.updated "c" "nop" none "b"),
      .ask "b" .state,
      .change (.updated "b" "mov w8, #93\nsvc #0" none "b")]
    ∃ d, (ofRequests history).get? "b" = some d ∧ d.uri = "file:a" ∧ d.version = 7 ∧
      Consistent history "b" d := by
  refine ⟨⟨"file:a", 7, "mov w8, #93\nsvc #0", .ofText "mov w8, #93\nsvc #0"⟩, rfl, rfl, rfl, ?_⟩
  exact (consistent_ofRequests _).left "b" _ rfl

end Workspace

end SvcLens
