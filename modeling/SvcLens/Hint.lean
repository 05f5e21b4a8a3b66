import SvcLens.IntMap
import SvcLens.Json

namespace SvcLens

structure Hint where
  label : String
  hover : Json
  deriving BEq, Repr

abbrev HintTable := IntMap (List Hint)

namespace HintTable

def onLine (t : HintTable) (n : Int) : List Hint :=
  (t.get? n).getD []

def push (t : HintTable) (n : Int) (h : Hint) : HintTable :=
  t.insert n (t.onLine n ++ [h])

def ofEvents (es : List (Int × Hint)) : HintTable :=
  es.foldl (fun t e => t.push e.1 e.2) .empty

theorem onLine_push (t : HintTable) (n m : Int) (h : Hint) :
    (t.push n h).onLine m = t.onLine m ++ if m = n then [h] else [] := by
  by_cases e : m = n <;> simp [onLine, push, e]

theorem onLine_foldl_push (es : List (Int × Hint)) (t : HintTable) (n : Int) :
    (es.foldl (fun t e => t.push e.1 e.2) t).onLine n =
      t.onLine n ++ (es.filter (·.1 == n)).map Prod.snd := by
  induction es generalizing t with
  | nil => simp
  | cons e es ih =>
    rw [List.foldl_cons, ih, onLine_push]
    by_cases h : n = e.1
    · simp [h]
    · simp [h, Ne.symm h]

theorem onLine_ofEvents (es : List (Int × Hint)) (n : Int) :
    (ofEvents es).onLine n = (es.filter (·.1 == n)).map Prod.snd := by
  rw [ofEvents, onLine_foldl_push]
  simp [onLine]

end HintTable

end SvcLens
