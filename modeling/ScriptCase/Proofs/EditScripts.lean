import Mathlib.Data.List.Basic
import Mathlib.Data.List.Chain
import ScriptCase.Diff.Script

/-!
# Edit scripts and what they cover

An edit script between two lists covers both of them (`EditScript.old_align`, `EditScript.new_align`). For this, the
stretch that is kept at each step must be the same in both lists (`Stretch.Shared`). The search finds such a stretch
because each row of lengths tells of shared stretches (`Stretch.RowShared`), whatever items it leaves out for being too
common.

The script between a list and itself changes nothing (`EditScript.align_self`). The search compares the list with all of
itself, and what it finds lies on the diagonal: a stretch that ends elsewhere is no longer than the stretch on the
diagonal that ends where either of its two ends does, and the earlier one of these was there before
(`Stretch.RowOnDiagonal`).
Scripts are tidy (`EditScript.isTidy_align`): their stretches are not empty, and changes are apart.
-/

namespace ScriptCase

variable {α : Type}

namespace EditScript

@[simp] theorem old_nil : old ([] : EditScript α) = [] := rfl

@[simp] theorem new_nil : new ([] : EditScript α) = [] := rfl

@[simp] theorem old_cons (x : Segment α) (s : EditScript α) : old (x :: s) = x.old ++ old s := rfl

@[simp] theorem new_cons (x : Segment α) (s : EditScript α) : new (x :: s) = x.new ++ new s := rfl

@[simp] theorem old_concat (s t : EditScript α) : old (s ++ t) = old s ++ old t := List.flatMap_append

@[simp] theorem new_concat (s t : EditScript α) : new (s ++ t) = new s ++ new t := List.flatMap_append

@[simp] theorem old_keep (items : List α) (s : EditScript α) : old (keep items s) = items ++ old s := by
  unfold keep
  split <;> simp [Segment.old]

@[simp] theorem new_keep (items : List α) (s : EditScript α) : new (keep items s) = items ++ new s := by
  unfold keep
  split <;> simp [Segment.new]

@[simp] theorem old_replace (o n : List α) : old (replace o n) = o := by
  unfold replace
  split
  · next h => simp_all
  · simp [Segment.old]

@[simp] theorem new_replace (o n : List α) : new (replace o n) = n := by
  unfold replace
  split
  · next h => simp_all
  · simp [Segment.new]

@[simp] theorem old_append (s t : EditScript α) : old (append s t) = old s ++ old t := by
  fun_induction append s t with
  | case1 => rfl
  | case2 items t => simp [Segment.old]
  | case3 x xs t _ ih => simp [ih]

@[simp] theorem new_append (s t : EditScript α) : new (append s t) = new s ++ new t := by
  fun_induction append s t with
  | case1 => rfl
  | case2 items t => simp [Segment.new]
  | case3 x xs t _ ih => simp [ih]

end EditScript

/-! ## Shared stretches -/

/-- The next item of a list, and what is behind it. -/
theorem getElem?_of_drop_eq_cons {o xs : List α} {i : Nat} {x : α} (h : o.drop i = x :: xs) :
    o[i]? = some x ∧ o.drop (i + 1) = xs := by
  constructor
  · rw [← List.head?_drop, h, List.head?_cons]
  · rw [← List.tail_drop, h, List.tail_cons]

namespace Stretch

variable {o n : List α} {s best : Stretch} {row : List Nat} {i j k : Nat} {x : α}

/-- The stretch lies in both lists and is the same in both. -/
structure Shared (s : Stretch) (o n : List α) : Prop where
  old_le : s.old + s.size ≤ o.length
  new_le : s.new + s.size ≤ n.length
  same : ∀ d < s.size, o[s.old + d]? = n[s.new + d]?

theorem Shared.take_drop (h : s.Shared o n) : (o.drop s.old).take s.size = (n.drop s.new).take s.size := by
  apply List.ext_getElem?
  intro d
  rw [List.getElem?_take, List.getElem?_take, List.getElem?_drop, List.getElem?_drop]
  split
  · next hd => exact h.same d hd
  · rfl

/-- Each length of a row is that of a shared stretch, which ends behind `i` items of the old list. -/
def RowShared (o n : List α) (i : Nat) (row : List Nat) : Prop :=
  ∀ j k, row[j]? = some k → k ≤ i ∧ k ≤ j + 1 ∧ Shared ⟨i - k, j + 1 - k, k⟩ o n

theorem rowShared_zero (hi : i ≤ o.length) : RowShared o n i (List.replicate n.length 0) := by
  intro j k h
  obtain ⟨hj, rfl⟩ : j < n.length ∧ 0 = k := by simpa [List.getElem?_replicate] using h
  exact ⟨by omega, by omega, by simpa using hi, by simp; omega, by simp⟩

theorem Shared.improve (hbest : best.Shared o n)
    (hrow : ∀ m k, row[m]? = some k → Shared ⟨i + 1 - k, j + m + 1 - k, k⟩ o n) :
    (improve i j best row).Shared o n := by
  induction row generalizing j best with
  | nil => exact hbest
  | cons k ks ih =>
    apply ih
    · split
      · exact hrow 0 k rfl
      · exact hbest
    · intro m k' hk'
      have h := hrow (m + 1) k' hk'
      rwa [Nat.add_right_comm j 1 m]

section Search

variable [DecidableEq α]

/-- An item in a row, and the item before it in the row before. -/
theorem getElem?_nextRow (h : (nextRow x row n)[j]? = some k) :
    ∃ y p, n[j]? = some y ∧ (0 :: row)[j]? = some p ∧ k = if x = y then p + 1 else 0 := by
  obtain ⟨y, p, hy, hp, rfl⟩ := List.getElem?_zipWith_eq_some.mp h
  exact ⟨y, p, hy, hp, rfl⟩

theorem RowShared.next (h : RowShared o n i row) (hx : o[i]? = some x) : RowShared o n (i + 1) (nextRow x row n) := by
  intro j k hk
  obtain ⟨y, p, hy, hp, rfl⟩ := getElem?_nextRow hk
  have hi : i < o.length := (List.getElem?_eq_some_iff.mp hx).1
  have hj : j < n.length := (List.getElem?_eq_some_iff.mp hy).1
  -- the stretch that ends one item earlier in both lists
  have hbefore : p ≤ i ∧ p ≤ j ∧ ∀ d < p, o[i - p + d]? = n[j - p + d]? := by
    cases j with
    | zero =>
      obtain rfl : 0 = p := by simpa using hp
      simp
    | succ j =>
      obtain ⟨hpi, hpj, hshared⟩ := h j p (by simpa using hp)
      exact ⟨hpi, hpj, hshared.same⟩
  obtain ⟨hpi, hpj, hsame⟩ := hbefore
  split
  · next hxy =>
    subst hxy
    have hold : i + 1 - (p + 1) = i - p := by omega
    have hnew : j + 1 - (p + 1) = j - p := by omega
    refine ⟨by omega, by omega, ?_, ?_, ?_⟩
    · show i + 1 - (p + 1) + (p + 1) ≤ o.length
      omega
    · show j + 1 - (p + 1) + (p + 1) ≤ n.length
      omega
    · intro d hd
      show o[i + 1 - (p + 1) + d]? = n[j + 1 - (p + 1) + d]?
      rw [hold, hnew]
      by_cases hlast : d = p
      · subst hlast
        rw [Nat.sub_add_cancel hpi, Nat.sub_add_cancel hpj, hx, hy]
      · exact hsame d (by simp at hd; omega)
  · exact ⟨by omega, by omega, by simp; omega, by simp; omega, by simp⟩

theorem Shared.search (isCommon : α → Bool) {xs : List α} (hbest : best.Shared o n) (hrow : RowShared o n i row)
    (hxs : o.drop i = xs) : (search isCommon n i best row xs).Shared o n := by
  induction xs generalizing i best row with
  | nil => exact hbest
  | cons x xs ih =>
    obtain ⟨hx, hrest⟩ := getElem?_of_drop_eq_cons hxs
    have hi : i < o.length := (List.getElem?_eq_some_iff.mp hx).1
    have hnext : RowShared o n (i + 1) (if isCommon x then List.replicate n.length 0 else nextRow x row n) := by
      split
      · exact rowShared_zero hi
      · exact hrow.next hx
    refine ih (hbest.improve fun m k hk => ?_) hnext hrest
    simpa using (hnext m k hk).2.2

theorem commonLength_le (xs ys : List α) : commonLength xs ys ≤ xs.length ∧ commonLength xs ys ≤ ys.length := by
  fun_induction commonLength xs ys with
  | case1 x xs ys ih => simpa using ih
  | case2 => simp
  | case3 => simp

theorem getElem?_of_lt_commonLength {xs ys : List α} {d : Nat} (h : d < commonLength xs ys) : xs[d]? = ys[d]? := by
  fun_induction commonLength xs ys generalizing d with
  | case1 x xs ys ih =>
    cases d with
    | zero => rfl
    | succ d => simpa using ih (by omega)
  | case2 => simp at h
  | case3 => simp at h

theorem commonLength_self (xs : List α) : commonLength xs xs = xs.length := by
  induction xs with
  | nil => rfl
  | cons x xs ih => simp [commonLength, ih]

theorem Shared.widen (h : s.Shared o n) : (s.widen o n).Shared o n := by
  unfold Stretch.widen
  have hbefore := commonLength_le (o.take s.old).reverse (n.take s.new).reverse
  have hafter := commonLength_le (o.drop (s.old + s.size)) (n.drop (s.new + s.size))
  have hold := h.old_le
  have hnew := h.new_le
  simp only [List.length_reverse, List.length_take, List.length_drop] at hbefore hafter
  have hfront : ∀ d < commonLength (o.take s.old).reverse (n.take s.new).reverse,
      o[s.old - 1 - d]? = n[s.new - 1 - d]? := by
    intro d hd
    have hsame := getElem?_of_lt_commonLength hd
    rw [List.getElem?_reverse (by simp; omega), List.getElem?_reverse (by simp; omega)] at hsame
    simp only [List.length_take, List.getElem?_take] at hsame
    rw [Nat.min_eq_left (by omega), Nat.min_eq_left (by omega), if_pos (by omega), if_pos (by omega)] at hsame
    exact hsame
  have hback : ∀ d < commonLength (o.drop (s.old + s.size)) (n.drop (s.new + s.size)),
      o[s.old + s.size + d]? = n[s.new + s.size + d]? := by
    intro d hd
    simpa using getElem?_of_lt_commonLength hd
  generalize commonLength (o.take s.old).reverse (n.take s.new).reverse = before at *
  generalize commonLength (o.drop (s.old + s.size)) (n.drop (s.new + s.size)) = after at *
  refine ⟨by simp; omega, by simp; omega, fun d hd => ?_⟩
  show o[s.old - before + d]? = n[s.new - before + d]?
  simp only at hd
  -- in front of the stretch, inside it, or behind it
  rcases Nat.lt_or_ge d before with hd1 | hd1
  · have h1 := hfront (before - 1 - d) (by omega)
    rwa [show s.old - 1 - (before - 1 - d) = s.old - before + d by omega,
      show s.new - 1 - (before - 1 - d) = s.new - before + d by omega] at h1
  · rcases Nat.lt_or_ge d (before + s.size) with hd2 | hd2
    · have h2 := h.same (d - before) (by omega)
      rwa [show s.old + (d - before) = s.old - before + d by omega,
        show s.new + (d - before) = s.new - before + d by omega] at h2
    · have h3 := hback (d - before - s.size) (by omega)
      rwa [show s.old + s.size + (d - before - s.size) = s.old - before + d by omega,
        show s.new + s.size + (d - before - s.size) = s.new - before + d by omega] at h3

theorem shared_search (isCommon : α → Bool) (o n : List α) :
    (search isCommon n 0 ⟨0, 0, 0⟩ (List.replicate n.length 0) o).Shared o n :=
  Shared.search isCommon ⟨by simp, by simp, by simp⟩ (rowShared_zero (Nat.zero_le _)) rfl

/-- The stretch that is found is a shared one. -/
theorem shared_longest (isCommon : α → Bool) (o n : List α) : (longest isCommon o n).Shared o n :=
  (shared_search isCommon o n).widen

end Search

/-! ## The diagonal -/

/-- The number of items in front of the place `i` that are not too common, back to the first one that is. -/
def uncommonRun (isCommon : α → Bool) (o : List α) (i : Nat) : Nat :=
  ((o.take i).reverse.takeWhile fun x => !isCommon x).length

theorem uncommonRun_zero (isCommon : α → Bool) (o : List α) : uncommonRun isCommon o 0 = 0 := by
  simp [uncommonRun]

theorem uncommonRun_succ (isCommon : α → Bool) (hx : o[i]? = some x) :
    uncommonRun isCommon o (i + 1) = if isCommon x then 0 else uncommonRun isCommon o i + 1 := by
  unfold uncommonRun
  rw [List.take_add_one, hx, Option.toList_some, List.reverse_concat, List.takeWhile_cons]
  cases isCommon x <;> simp

theorem improve_of_le (h : ∀ k ∈ row, k ≤ best.size) : improve i j best row = best := by
  induction row generalizing j with
  | nil => rfl
  | cons k ks ih =>
    have hk := h k List.mem_cons_self
    rw [improve, if_neg (by omega)]
    exact ih fun k' hk' => h k' (List.mem_cons_of_mem _ hk')

/-- A row improves a stretch on the diagonal to one on the diagonal, if nothing before the diagonal improves it and
nothing is longer than what stands there. -/
theorem improve_on_diagonal {r : Nat} (hbest : best.old = best.new) (hj : j ≤ i) (hr : row[i - j]? = some r)
    (hbefore : ∀ m k, row[m]? = some k → j + m < i → k ≤ best.size) (hle : ∀ k ∈ row, k ≤ r) :
    (improve i j best row).old = (improve i j best row).new ∧ best.size ≤ (improve i j best row).size ∧
      r ≤ (improve i j best row).size := by
  induction row generalizing j with
  | nil => simp at hr
  | cons k ks ih =>
    rw [improve]
    rcases Nat.lt_or_eq_of_le hj with hlt | rfl
    · have hk := hbefore 0 k rfl (by omega)
      rw [if_neg (by omega)]
      apply ih hlt
      · rwa [show i - j = i - (j + 1) + 1 by omega, List.getElem?_cons_succ] at hr
      · intro m k' hk' hm
        exact hbefore (m + 1) k' (by simpa using hk') (by omega)
      · exact fun k' hk' => hle k' (List.mem_cons_of_mem _ hk')
    · obtain rfl : k = r := by simpa using hr
      have hks : ∀ k' ∈ ks, k' ≤ k := fun k' hk' => hle k' (List.mem_cons_of_mem _ hk')
      split
      · rw [improve_of_le (by simpa using hks)]
        simp
        omega
      · rw [improve_of_le (fun k' hk' => by have := hks k' hk'; omega)]
        omega

/-- A row of the search of a list in itself, behind `i` items: a length is at most that of the run that ends where
either end of its stretch does, and on the diagonal it is that of the run. -/
structure RowOnDiagonal (isCommon : α → Bool) (o : List α) (i : Nat) (row : List Nat) : Prop where
  le : ∀ j k, row[j]? = some k → k ≤ uncommonRun isCommon o i ∧ k ≤ uncommonRun isCommon o (j + 1)
  diagonal : ∀ j, i = j + 1 → row[j]? = some (uncommonRun isCommon o i)

variable [DecidableEq α]

theorem RowOnDiagonal.next {isCommon : α → Bool} (h : RowOnDiagonal isCommon o i row) (hx : o[i]? = some x) :
    RowOnDiagonal isCommon o (i + 1) (if isCommon x then List.replicate o.length 0 else nextRow x row o) := by
  have hi : i < o.length := (List.getElem?_eq_some_iff.mp hx).1
  have hrun := uncommonRun_succ isCommon hx
  cases hcommon : isCommon x with
  | true =>
    rw [hcommon, if_pos rfl] at hrun
    rw [if_pos rfl]
    constructor
    · intro j k hk
      obtain ⟨-, rfl⟩ : j < o.length ∧ 0 = k := by simpa [List.getElem?_replicate] using hk
      omega
    · intro j hj
      obtain rfl : i = j := by omega
      rw [hrun]
      simpa [List.getElem?_replicate] using hi
  | false =>
    rw [hcommon, if_neg (by simp)] at hrun
    rw [if_neg (by simp)]
    constructor
    · intro j k hk
      obtain ⟨y, p, hy, hp, rfl⟩ := getElem?_nextRow hk
      split
      · next hxy =>
        subst hxy
        have hrunj := uncommonRun_succ isCommon hy
        rw [hcommon, if_neg (by simp)] at hrunj
        cases j with
        | zero =>
          obtain rfl : 0 = p := by simpa using hp
          omega
        | succ j =>
          have hle := h.le j p (by simpa using hp)
          omega
      · omega
    · intro j hj
      obtain rfl : i = j := by omega
      have hprevious : (0 :: row)[i]? = some (uncommonRun isCommon o i) := by
        cases i with
        | zero => simp [uncommonRun_zero]
        | succ i => simpa using h.diagonal i rfl
      unfold nextRow
      rw [List.getElem?_zipWith_eq_some]
      exact ⟨x, _, hx, hprevious, by rw [if_pos rfl, hrun]⟩

theorem search_on_diagonal (isCommon : α → Bool) {xs : List α} (hbest : best.old = best.new)
    (hsize : ∀ m ≤ i, uncommonRun isCommon o m ≤ best.size) (hrow : RowOnDiagonal isCommon o i row)
    (hxs : o.drop i = xs) :
    (search isCommon o i best row xs).old = (search isCommon o i best row xs).new := by
  induction xs generalizing i best row with
  | nil => exact hbest
  | cons x xs ih =>
    obtain ⟨hx, hrest⟩ := getElem?_of_drop_eq_cons hxs
    have hnext := hrow.next hx
    have hstep := improve_on_diagonal (j := 0) hbest (Nat.zero_le i) (hnext.diagonal i rfl)
      (fun m k hk hm => Nat.le_trans (hnext.le m k hk).2 (hsize (m + 1) (by omega)))
      (fun k hk => by
        obtain ⟨m, hm⟩ := List.mem_iff_getElem?.mp hk
        exact (hnext.le m k hm).1)
    refine ih hstep.1 ?_ hnext hrest
    intro m hm
    rcases Nat.lt_or_eq_of_le hm with hlt | rfl
    · exact Nat.le_trans (hsize m (by omega)) hstep.2.1
    · exact hstep.2.2

/-- The longest stretch that a list shares with itself is all of it. -/
theorem longest_self (isCommon : α → Bool) (o : List α) : longest isCommon o o = ⟨0, 0, o.length⟩ := by
  have hshared := shared_search isCommon o o
  have hrow : RowOnDiagonal isCommon o 0 (List.replicate o.length 0) := by
    constructor
    · intro j k hk
      obtain ⟨-, rfl⟩ : j < o.length ∧ 0 = k := by simpa [List.getElem?_replicate] using hk
      omega
    · intro j hj
      omega
  have hsize : ∀ m ≤ 0, uncommonRun isCommon o m ≤ 0 := by
    intro m hm
    obtain rfl := Nat.le_zero.mp hm
    exact Nat.le_of_eq (uncommonRun_zero isCommon o)
  have hdiagonal : (search isCommon o 0 ⟨0, 0, 0⟩ (List.replicate o.length 0) o).old =
      (search isCommon o 0 ⟨0, 0, 0⟩ (List.replicate o.length 0) o).new :=
    search_on_diagonal isCommon rfl hsize hrow List.drop_zero
  unfold longest
  generalize search isCommon o 0 ⟨0, 0, 0⟩ (List.replicate o.length 0) o = s at *
  obtain ⟨a, b, size⟩ := s
  obtain rfl : a = b := hdiagonal
  have hle := hshared.old_le
  simp only at hle
  simp only [widen, commonLength_self, List.length_reverse, List.length_take, List.length_drop, mk.injEq]
  omega

end Stretch

namespace EditScript

variable [DecidableEq α]

theorem old_alignWith (isCommon : α → Bool) (fuel : Nat) (o n : List α) : old (alignWith isCommon fuel o n) = o := by
  induction fuel generalizing o n with
  | zero => exact old_replace o n
  | succ fuel ih =>
    rw [alignWith]
    split
    · exact old_replace o n
    · rw [old_append, old_keep, ih, ih, ← List.drop_drop, List.take_append_drop, List.take_append_drop]

theorem new_alignWith (isCommon : α → Bool) (fuel : Nat) (o n : List α) : new (alignWith isCommon fuel o n) = n := by
  induction fuel generalizing o n with
  | zero => exact new_replace o n
  | succ fuel ih =>
    rw [alignWith]
    split
    · exact new_replace o n
    · -- what is kept is the same in the new list
      rw [new_append, new_keep, ih, ih, (Stretch.shared_longest isCommon o n).take_drop, ← List.drop_drop,
        List.take_append_drop, List.take_append_drop]

/-- The script covers the old list. -/
@[simp] theorem old_align (o n : List α) : old (align o n) = o := old_alignWith _ _ o n

/-- The script covers the new list. -/
@[simp] theorem new_align (o n : List α) : new (align o n) = n := new_alignWith _ _ o n

theorem alignWith_nil (isCommon : α → Bool) (fuel : Nat) : alignWith isCommon fuel ([] : List α) [] = [] := by
  cases fuel with
  | zero => rfl
  | succ fuel =>
    rw [alignWith, if_pos (by rw [Stretch.longest_self]; rfl)]
    rfl

/-- The script between a list and itself keeps all of it. -/
theorem align_self (o : List α) : align o o = if o = [] then [] else [.keep o] := by
  unfold align
  split
  · next h =>
    subst h
    exact alignWith_nil _ _
  · next h =>
    obtain ⟨fuel, hfuel⟩ : ∃ fuel, o.length = fuel + 1 := ⟨o.length - 1, by have := List.length_pos_iff.mpr h; omega⟩
    rw [hfuel, alignWith, if_neg (by rw [Stretch.longest_self]; simpa using h), Stretch.longest_self]
    simp [alignWith_nil, append, keep]

end EditScript

/-! ## Tidy scripts -/

namespace EditScript

/-- No stretch is empty, and of two neighbours one is kept. -/
structure IsTidy (s : EditScript α) : Prop where
  full : ∀ x ∈ s, x.old ≠ [] ∨ x.new ≠ []
  apart : s.IsChain fun x y => x.isKeep = true ∨ y.isKeep = true

theorem isTidy_nil : IsTidy ([] : EditScript α) := ⟨by simp, .nil⟩

theorem isTidy_replace (o n : List α) : IsTidy (replace o n) := by
  unfold replace
  split
  · exact isTidy_nil
  · next h =>
    refine ⟨?_, .singleton _⟩
    intro x hx
    obtain rfl := List.mem_singleton.mp hx
    simpa [Segment.old, Segment.new, ← not_and_or] using h

/-- Before a change at the end, lines are kept. -/
theorem IsTidy.exists_keep {init : EditScript α} {x : Segment α} (h : IsTidy (init ++ [x])) (hx : x.isKeep = false) :
    init = [] ∨ ∃ before ls, init = before ++ [.keep ls] ∧ ls ≠ [] := by
  rcases List.eq_nil_or_concat' init with rfl | ⟨before, y, rfl⟩
  · exact .inl rfl
  · have hkeep := (List.isChain_append.mp h.apart).2.2 y (by simp) x rfl
    cases y with
    | keep ls =>
      have hfull := h.full (.keep ls) (by simp)
      exact .inr ⟨before, ls, rfl, by simpa [Segment.old, Segment.new] using hfull⟩
    | change o n => simp [hx, show (Segment.change o n).isKeep = false from rfl] at hkeep

/-- The script begins with a stretch that is kept. -/
def BeginsKept (s : EditScript α) : Prop := ∀ x ∈ s.head?, x.isKeep = true

theorem beginsKept_keep (items : List α) (s : EditScript α) : BeginsKept (keep items s) := by
  unfold keep
  split <;> simp [BeginsKept, Segment.isKeep]

theorem IsTidy.keep {items : List α} {s : EditScript α} (hitems : items ≠ []) (hs : IsTidy s) :
    IsTidy (keep items s) := by
  unfold EditScript.keep
  split
  · next more rest =>
    obtain ⟨hfull, hapart⟩ := hs
    refine ⟨List.forall_mem_cons.mpr ⟨?_, fun x hx => hfull x (List.mem_cons_of_mem _ hx)⟩, ?_⟩
    · simp [Segment.old, hitems]
    · exact List.isChain_cons.mpr ⟨fun y hy => .inl rfl, (List.isChain_cons.mp hapart).2⟩
  · refine ⟨List.forall_mem_cons.mpr ⟨?_, hs.full⟩, ?_⟩
    · simp [Segment.old, hitems]
    · exact List.isChain_cons.mpr ⟨fun y hy => .inl rfl, hs.apart⟩

/-- Whether the first stretch is kept is up to the first script, if that is not empty. -/
theorem beginsKept_append {x : Segment α} {s t : EditScript α} (hx : x.isKeep = true) :
    BeginsKept (append (x :: s) t) := by
  cases x with
  | keep items =>
    cases s with
    | nil => exact beginsKept_keep items t
    | cons y s => simp [append, BeginsKept, Segment.isKeep]
  | change o n => cases hx

theorem IsTidy.append {s t : EditScript α} (hs : IsTidy s) (ht : IsTidy t) (hbegin : BeginsKept t) :
    IsTidy (append s t) := by
  fun_induction EditScript.append s t with
  | case1 => exact ht
  | case2 items t =>
    have hitems := hs.full _ List.mem_cons_self
    exact ht.keep (by simpa [Segment.old, Segment.new] using hitems)
  | case3 x xs t hlast ih =>
    obtain ⟨hx, hxs⟩ := List.forall_mem_cons.mp hs.full
    obtain ⟨hnext, hrest⟩ := List.isChain_cons.mp hs.apart
    have htail := ih ⟨hxs, hrest⟩ ht hbegin
    refine ⟨List.forall_mem_cons.mpr ⟨hx, htail.full⟩, List.isChain_cons.mpr ⟨?_, htail.apart⟩⟩
    intro y hy
    cases xs with
    | nil => exact .inr (hbegin y hy)
    | cons z zs =>
      rcases hnext z rfl with hkeep | hkeep
      · exact .inl hkeep
      · exact .inr (beginsKept_append hkeep y hy)

variable [DecidableEq α]

theorem isTidy_alignWith (isCommon : α → Bool) (fuel : Nat) (o n : List α) : IsTidy (alignWith isCommon fuel o n) := by
  induction fuel generalizing o n with
  | zero => exact isTidy_replace o n
  | succ fuel ih =>
    rw [alignWith]
    split
    · exact isTidy_replace o n
    · next hsize =>
      have hold := (Stretch.shared_longest isCommon o n).old_le
      have hkept : (o.drop (Stretch.longest isCommon o n).old).take (Stretch.longest isCommon o n).size ≠ [] := by
        rw [← List.length_pos_iff, List.length_take, List.length_drop]
        omega
      exact (ih _ _).append ((ih _ _).keep hkept) (beginsKept_keep _ _)

theorem isTidy_align (o n : List α) : IsTidy (align o n) := isTidy_alignWith _ _ o n

end EditScript

end ScriptCase
