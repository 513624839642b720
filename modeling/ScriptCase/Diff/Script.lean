/-!
# Edit scripts

An edit script turns one list into another: stretches that are kept, and stretches that give way to others. `align`
finds one by keeping the longest common stretch and doing the same before and after it. Of the longest stretches the
one that begins first counts. In a long list, items that occur in more than about one place in a hundred are too common
to begin a stretch and only widen one.
-/

namespace ScriptCase

/-- A stretch of an edit script. -/
inductive Segment (α : Type) where
  | keep (items : List α)
  | change (old new : List α)

/-- An edit script. -/
abbrev EditScript (α : Type) := List (Segment α)

namespace Segment

variable {α : Type}

/-- What the stretch covers of the old list. -/
def old : Segment α → List α
  | .keep items => items
  | .change o _ => o

/-- What the stretch covers of the new list. -/
def new : Segment α → List α
  | .keep items => items
  | .change _ n => n

/-- The stretch keeps what it covers. -/
def isKeep : Segment α → Bool
  | .keep _ => true
  | .change _ _ => false

end Segment

namespace EditScript

variable {α : Type}

/-- The old list. -/
def old (s : EditScript α) : List α := s.flatMap Segment.old

/-- The new list. -/
def new (s : EditScript α) : List α := s.flatMap Segment.new

/-- A script with a stretch to keep before it; it joins a stretch to keep that the script begins with. -/
def keep (items : List α) : EditScript α → EditScript α
  | .keep more :: rest => .keep (items ++ more) :: rest
  | s => .keep items :: s

/-- The script that replaces one list by another one. -/
def replace (o n : List α) : EditScript α := if o.isEmpty && n.isEmpty then [] else [.change o n]

/-- Two scripts one after the other, joined where the first ends and the second begins with a stretch to keep. -/
def append : EditScript α → EditScript α → EditScript α
  | [], s => s
  | [.keep items], s => keep items s
  | x :: xs, s => x :: append xs s

end EditScript

/-- A stretch of `size` items that begins at `old` in one list and at `new` in another. -/
structure Stretch where
  old : Nat
  new : Nat
  size : Nat

namespace Stretch

variable {α : Type} [DecidableEq α]

/-- The lengths of the common stretches that end with `x` and each item of the new list, from those that end one item
earlier in both lists. -/
def nextRow (x : α) (previous : List Nat) (new : List α) : List Nat :=
  List.zipWith (fun y k => if x = y then k + 1 else 0) new (0 :: previous)

/-- The better one of a stretch and those of a row, whose last item is item `i` of the old list; `j` counts along. -/
def improve (i : Nat) : (j : Nat) → (best : Stretch) → (row : List Nat) → Stretch
  | _, best, [] => best
  | j, best, k :: ks => improve i (j + 1) (if best.size < k then ⟨i + 1 - k, j + 1 - k, k⟩ else best) ks

/-- The longest stretch, from item `i` of the old list on. Common items do not take part. -/
def search (isCommon : α → Bool) (new : List α) : (i : Nat) → (best : Stretch) → (row : List Nat) → List α → Stretch
  | _, best, _, [] => best
  | i, best, row, x :: xs =>
    let row := if isCommon x then List.replicate new.length 0 else nextRow x row new
    search isCommon new (i + 1) (improve i 0 best row) row xs

/-- The number of items that two lists have in common at their start. -/
def commonLength : List α → List α → Nat
  | x :: xs, y :: ys => if x = y then commonLength xs ys + 1 else 0
  | _, _ => 0

/-- The stretch, widened by all equal items on both sides of it. -/
def widen (s : Stretch) (old new : List α) : Stretch :=
  let before := commonLength (old.take s.old).reverse (new.take s.new).reverse
  let after := commonLength (old.drop (s.old + s.size)) (new.drop (s.new + s.size))
  ⟨s.old - before, s.new - before, before + s.size + after⟩

/-- The longest common stretch of two lists. -/
def longest (isCommon : α → Bool) (old new : List α) : Stretch :=
  (search isCommon new 0 ⟨0, 0, 0⟩ (List.replicate new.length 0) old).widen old new

end Stretch

namespace EditScript

variable {α : Type} [DecidableEq α]

/-- A list of this length or longer has items that are too common. -/
def longLength : Nat := 200

/-- The item is too common in the list to begin a stretch. -/
def isCommonIn (new : List α) (x : α) : Bool :=
  decide (longLength ≤ new.length) && decide (new.length / 100 + 1 < new.count x)

/-- The script between two lists. The old list shrinks with every step, so its length bounds the steps. -/
def alignWith (isCommon : α → Bool) : (fuel : Nat) → (old new : List α) → EditScript α
  | 0, o, n => replace o n
  | fuel + 1, o, n =>
    let s := Stretch.longest isCommon o n
    if s.size = 0 then replace o n
    else
      append (alignWith isCommon fuel (o.take s.old) (n.take s.new))
        (keep ((o.drop s.old).take s.size)
          (alignWith isCommon fuel (o.drop (s.old + s.size)) (n.drop (s.new + s.size))))

/-- The script that turns one list into another. -/
def align (o n : List α) : EditScript α := alignWith (isCommonIn n) o.length o n

end EditScript
end ScriptCase
