import Collate.Proofs.Sorting.RadixSort

/-!
# Passes by counting

A pass of a radix sort can be made between two buffers of one size: the items of every digit are
counted, each digit gets the positions behind those of the lower ones, and then each item goes to
the next position of its digit.  With a look at the bounds of every access this is `distribute?`.
It never leaves them, and it comes to the buckets in a row (`distribute?_eq`), so a whole sort
between two buffers comes to the radix sort, whichever of the passes are left out that may be
(`sortSkipping?_eq`).  With keys of so many bytes it is a stable sort (`sortByKey_stable`).
-/

namespace Collate.Radix

variable {α : Type} {digit : α → Nat}

/-- Counts the items of every digit. -/
def count? (digit : α → Nat) : List α → Array Nat → Option (Array Nat)
  | [], counts => some counts
  | a :: items, counts => do
    let n ← counts[digit a]?
    count? digit items (counts.setIfInBounds (digit a) (n + 1))

/-- The first position of each digit, behind those of the lower ones. -/
def positions (sum : Nat) : List Nat → List Nat
  | [] => []
  | n :: counts => sum :: positions (sum + n) counts

/-- Puts every item at the next position of its digit. -/
def scatter? (digit : α → Nat) : List α → Array Nat → Array α → Option (Array α)
  | [], _, out => some out
  | a :: items, offsets, out => do
    let offset ← offsets[digit a]?
    if offset < out.size then
      scatter? digit items (offsets.setIfInBounds (digit a) (offset + 1))
        (out.setIfInBounds offset a)
    else none

/-- Distributes the items over a buffer. -/
def distribute? (digit : α → Nat) (items : List α) (out : Array α) : Option (Array α) := do
  let counts ← count? digit items (Array.replicate base 0)
  scatter? digit items (positions 0 counts.toList).toArray out

/-- A pass from one buffer to the other.  It may be left out on request, where all items have the
same digit. -/
def passSkipping? (skip : Bool) (buffers : Array (Nat × α) × Array (Nat × α)) (place : Nat) :
    Option (Array (Nat × α) × Array (Nat × α)) :=
  let digitOf (item : Nat × α) := Radix.digit place item.1
  if skip && isUniform digitOf buffers.1.toList then some buffers
  else do
    let out ← distribute? digitOf buffers.1.toList buffers.2
    return (out, buffers.1)

/-- Sorts items by keys of so many digits, in two buffers; the passes for some of the places may be
left out. -/
def sortSkipping? (skips : Nat → Bool) (places : Nat) (items : List (Nat × α)) :
    Option (List (Nat × α)) := do
  let (sorted, _) ← (List.range places).foldlM
    (fun buffers place => passSkipping? (skips place) buffers place) (items.toArray, items.toArray)
  return sorted.toList

/-- Sorts items by keys of so many digits, in two buffers, without the passes that may be left
out. -/
def sort? (places : Nat) (items : List (Nat × α)) : Option (List (Nat × α)) :=
  sortSkipping? (fun _ => true) places items

/-! ### Positions -/

/-- The items of a digit. -/
def bucket (digit : α → Nat) (items : List α) (d : Nat) : List α :=
  items.filter fun a => digit a = d

/-- How many items have a lower digit. -/
def start (digit : α → Nat) (items : List α) (d : Nat) : Nat :=
  ((List.range d).map fun e => (bucket digit items e).length).sum

theorem start_succ (digit : α → Nat) (items : List α) (d : Nat) :
    start digit items (d + 1) = start digit items d + (bucket digit items d).length := by
  simp [start, List.range_succ]

theorem start_mono (digit : α → Nat) (items : List α) {d e : Nat} (h : d ≤ e) :
    start digit items d ≤ start digit items e := by
  induction e, h using Nat.le_induction with
  | base => exact le_rfl
  | succ e _ ih => exact ih.trans (start_succ digit items e ▸ Nat.le_add_right _ _)

/-- The positions of a digit end where those of the higher ones begin. -/
theorem start_add_length_le (digit : α → Nat) (items : List α) {d e : Nat} (h : d < e) :
    start digit items d + (bucket digit items d).length ≤ start digit items e :=
  start_succ digit items d ▸ start_mono digit items h

theorem length_bucket_cons (digit : α → Nat) (a : α) (items : List α) (d : Nat) :
    (bucket digit (a :: items) d).length =
      (bucket digit items d).length + if digit a = d then 1 else 0 := by
  by_cases h : digit a = d <;> simp [bucket, h]

theorem start_cons (digit : α → Nat) (a : α) (items : List α) (d : Nat) :
    start digit (a :: items) d = start digit items d + if digit a < d then 1 else 0 := by
  induction d with
  | zero => rfl
  | succ d ih =>
    rw [start_succ, start_succ, ih, length_bucket_cons]
    split_ifs <;> omega

/-- All digits together have the positions of all items. -/
theorem start_base (hd : ∀ a, digit a < base) (items : List α) :
    start digit items base = items.length := by
  induction items with
  | nil => simp [start, bucket]
  | cons a items ih => rw [start_cons, ih, if_pos (hd a), List.length_cons]

/-! ### Counting -/

theorem count?_eq (hd : ∀ a, digit a < base) (items : List α) (f : Nat → Nat) :
    count? digit items ((List.range base).map f).toArray =
      some ((List.range base).map fun d => f d + (bucket digit items d).length).toArray := by
  induction items generalizing f with
  | nil => rfl
  | cons a items ih =>
    have hread : ((List.range base).map f).toArray[digit a]? = some (f (digit a)) := by
      simp [hd a]
    have hwrite : ((List.range base).map f).toArray.setIfInBounds (digit a) (f (digit a) + 1) =
        ((List.range base).map fun d => f d + if digit a = d then 1 else 0).toArray := by
      refine Array.ext_getElem? fun d => ?_
      by_cases h : digit a = d
      · subst h
        simp [hd a]
      · by_cases hlt : d < base <;> simp [h, hlt]
    rw [count?, hread]
    simp only [Option.bind_eq_bind, Option.bind_some, hwrite, ih, length_bucket_cons]
    refine congrArg some (congrArg List.toArray (List.map_congr_left fun d _ => ?_))
    omega

theorem getElem?_positions (sum : Nat) (counts : List Nat) (d : Nat) :
    (positions sum counts)[d]? =
      if d < counts.length then some (sum + (counts.take d).sum) else none := by
  induction counts generalizing sum d with
  | nil => rfl
  | cons n counts ih =>
    cases d with
    | zero => simp [positions]
    | succ d =>
      rw [positions, List.getElem?_cons_succ, ih]
      simp [Nat.add_assoc]

/-- The positions of the counted digits. -/
theorem getElem?_positions_count (items : List α) {d : Nat} (h : d < base) :
    (positions 0 ((List.range base).map fun d => (bucket digit items d).length)).toArray[d]? =
      some (start digit items d) := by
  rw [List.getElem?_toArray, getElem?_positions, if_pos (by simpa using h), ← List.map_take,
    List.take_range, Nat.min_eq_left h.le, Nat.zero_add]
  rfl

/-! ### Scattering -/

/-- Behind the start of each digit stand its items so far. -/
def Placed (digit : α → Nat) (items placed : List α) (out : Array α) : Prop :=
  ∀ d, ∀ j < (bucket digit placed d).length,
    out[start digit items d + j]? = (bucket digit placed d)[j]?

/-- The offset of each digit is the position behind its items so far. -/
def Next (digit : α → Nat) (items placed : List α) (offsets : Array Nat) : Prop :=
  ∀ d < base, offsets[d]? = some (start digit items d + (bucket digit placed d).length)

section Step

variable {placed rest : List α} {a : α}

theorem bucket_append_singleton (digit : α → Nat) (placed : List α) (a : α) (d : Nat) :
    bucket digit (placed ++ [a]) d =
      bucket digit placed d ++ if digit a = d then [a] else [] := by
  by_cases h : digit a = d <;> simp [bucket, h]

theorem length_bucket_le (digit : α → Nat) (placed rest : List α) (d : Nat) :
    (bucket digit placed d).length ≤ (bucket digit (placed ++ rest) d).length := by
  simp [bucket]

/-- The items of a digit so far are not all. -/
theorem length_bucket_lt (digit : α → Nat) (placed rest : List α) (a : α) :
    (bucket digit placed (digit a)).length <
      (bucket digit (placed ++ a :: rest) (digit a)).length := by
  simp [bucket]

/-- There is a position left for the next item of a digit. -/
theorem position_lt (hd : ∀ a, digit a < base) (placed rest : List α) (a : α) :
    start digit (placed ++ a :: rest) (digit a) + (bucket digit placed (digit a)).length <
      (placed ++ a :: rest).length := by
  have hmore := length_bucket_lt digit placed rest a
  have hend := start_add_length_le digit (placed ++ a :: rest) (hd a)
  rw [start_base hd] at hend
  omega

theorem Next.write {offsets : Array Nat} (h : Next digit (placed ++ a :: rest) placed offsets)
    (hd : ∀ a, digit a < base) : Next digit (placed ++ a :: rest) (placed ++ [a])
      (offsets.setIfInBounds (digit a)
        (start digit (placed ++ a :: rest) (digit a) + (bucket digit placed (digit a)).length +
          1)) := by
  intro d hlt
  rw [bucket_append_singleton]
  by_cases ha : digit a = d
  · subst ha
    have hin : digit a < offsets.size := (Array.getElem?_eq_some_iff.1 (h (digit a) (hd a))).1
    rw [Array.getElem?_setIfInBounds_self_of_lt hin, if_pos rfl, List.length_append,
      List.length_singleton, Nat.add_assoc]
  · rw [Array.getElem?_setIfInBounds_ne ha, if_neg ha, List.append_nil, h d hlt]

/-- A write at the next position of a digit is behind the items of that digit, and hits no item of
another one. -/
theorem Placed.write {out : Array α} (h : Placed digit (placed ++ a :: rest) placed out)
    (hroom : start digit (placed ++ a :: rest) (digit a) + (bucket digit placed (digit a)).length <
      out.size) : Placed digit (placed ++ a :: rest) (placed ++ [a])
      (out.setIfInBounds (start digit (placed ++ a :: rest) (digit a) +
        (bucket digit placed (digit a)).length) a) := by
  intro d j hj
  rw [bucket_append_singleton] at hj ⊢
  by_cases ha : digit a = d
  · subst ha
    rw [if_pos rfl] at hj ⊢
    rw [List.length_append, List.length_singleton] at hj
    rcases Nat.lt_or_ge j (bucket digit placed (digit a)).length with hlt | hge
    · rw [Array.getElem?_setIfInBounds_ne (by omega), List.getElem?_append_left hlt]
      exact h (digit a) j hlt
    · obtain rfl : j = (bucket digit placed (digit a)).length := by omega
      rw [Array.getElem?_setIfInBounds_self_of_lt hroom, List.getElem?_append_right le_rfl]
      simp
  · rw [if_neg ha, List.append_nil] at hj ⊢
    have hother : start digit (placed ++ a :: rest) (digit a) +
        (bucket digit placed (digit a)).length ≠ start digit (placed ++ a :: rest) d + j := by
      have hle := length_bucket_le digit placed (a :: rest) d
      have hmore := length_bucket_lt digit placed rest a
      rcases Nat.lt_or_gt_of_ne ha with hlt | hgt
      · have := start_add_length_le digit (placed ++ a :: rest) hlt
        omega
      · have := start_add_length_le digit (placed ++ a :: rest) hgt
        omega
    rw [Array.getElem?_setIfInBounds_ne hother]
    exact h d j hj

end Step

theorem scatter?_eq (hd : ∀ a, digit a < base) (placed rest : List α) (offsets : Array Nat)
    (out : Array α) (hsize : out.size = (placed ++ rest).length)
    (hoffsets : Next digit (placed ++ rest) placed offsets)
    (hplaced : Placed digit (placed ++ rest) placed out) :
    ∃ sorted, scatter? digit rest offsets out = some sorted ∧
      sorted.size = (placed ++ rest).length ∧
      Placed digit (placed ++ rest) (placed ++ rest) sorted := by
  induction rest generalizing placed offsets out with
  | nil => exact ⟨out, rfl, hsize, by simpa using hplaced⟩
  | cons a rest ih =>
    have hitems : placed ++ a :: rest = placed ++ [a] ++ rest := by simp
    have hroom := hsize ▸ position_lt hd placed rest a
    have hnext := hoffsets.write hd
    have hwritten := hplaced.write hroom
    rw [scatter?, hoffsets (digit a) (hd a)]
    simp only [Option.bind_eq_bind, Option.bind_some]
    rw [if_pos hroom]
    rw [hitems] at hnext hwritten ⊢
    exact ih (placed ++ [a]) _ _ (by rw [Array.size_setIfInBounds, hsize, hitems]) hnext hwritten

/-- What stands behind the starts of the digits is the buckets in a row. -/
theorem take_of_placed {items : List α} {out : Array α} (hsize : out.size = items.length)
    (hd : ∀ a, digit a < base) (h : Placed digit items items out) {n : Nat} (hn : n ≤ base) :
    (List.range n).flatMap (bucket digit items) = out.toList.take (start digit items n) := by
  induction n with
  | zero => simp [start]
  | succ n ih =>
    have hend : start digit items (n + 1) ≤ out.size := by
      rw [hsize, ← start_base hd]
      exact start_mono digit items hn
    have hbucket : (out.toList.drop (start digit items n)).take (bucket digit items n).length =
        bucket digit items n := by
      refine List.ext_getElem? fun j => ?_
      rw [List.getElem?_take]
      split_ifs with hj
      · rw [List.getElem?_drop, Array.getElem?_toList]
        exact h n j hj
      · rw [List.getElem?_eq_none (not_lt.1 hj)]
    rw [List.range_succ, List.flatMap_append, ih (by omega), List.flatMap_singleton, start_succ,
      List.take_add, hbucket]

/-- Counting and scattering comes to the buckets in a row, in any buffer of the size. -/
theorem distribute?_eq (hd : ∀ a, digit a < base) (items : List α) {out : Array α}
    (hsize : out.size = items.length) :
    distribute? digit items out = some (distribute digit items).toArray := by
  have hcount := count?_eq hd items fun _ => 0
  have hzero : ((List.range base).map fun _ => 0).toArray = Array.replicate base 0 := by
    simp
  simp only [Nat.zero_add, hzero] at hcount
  obtain ⟨sorted, hsorted, hlength, hplaced⟩ := scatter?_eq hd [] items
    (positions 0 ((List.range base).map fun d => (bucket digit items d).length)).toArray out hsize
    (fun d hlt => by rw [getElem?_positions_count items hlt]; rfl)
    (fun d j hj => by simp [bucket] at hj)
  have hwhole := take_of_placed hlength hd hplaced le_rfl
  rw [start_base hd, List.take_of_length_le (by simp [hlength])] at hwhole
  rw [distribute?, hcount]
  simp only [Option.bind_eq_bind, Option.bind_some, hsorted, distribute_eq_flatMap]
  exact congrArg some (Array.toList_inj.1 hwhole.symm)

/-! ### All passes -/

theorem length_distribute (hd : ∀ a, digit a < base) (items : List α) :
    (distribute digit items).length = items.length := by
  rw [distribute_eq_flatMap, List.length_flatMap]
  exact start_base hd items

theorem length_pass (items : List (Nat × α)) (place : Nat) :
    (pass items place).length = items.length := by
  unfold pass
  simp only
  split_ifs
  · rfl
  · exact length_distribute (fun item => digit_lt place item.1) items

/-- A pass between buffers of one size comes to that of the radix sort.  If it is made although all
items have the same digit, it only copies them from one buffer to the other. -/
theorem exists_passSkipping? (skip : Bool) (place : Nat) {items other : List (Nat × α)}
    (h : other.length = items.length) : ∃ left : List (Nat × α),
      left.length = (pass items place).length ∧
      passSkipping? skip (items.toArray, other.toArray) place =
        some ((pass items place).toArray, left.toArray) := by
  have hdigit : ∀ item : Nat × α, digit place item.1 < base := fun item => digit_lt place item.1
  have hmade : distribute? (fun item : Nat × α => digit place item.1) items other.toArray =
      some (distribute (fun item => digit place item.1) items).toArray :=
    distribute?_eq hdigit items (by simpa using h)
  rw [length_pass, passSkipping?, pass]
  simp only
  split_ifs with hskip huniform huniform
  · exact ⟨other, h, rfl⟩
  · exact absurd (Bool.and_eq_true_iff.1 hskip).2 huniform
  · rw [hmade, distribute_of_isUniform hdigit huniform]
    exact ⟨items, rfl, rfl⟩
  · rw [hmade]
    exact ⟨items, rfl, rfl⟩

theorem exists_foldlM_passSkipping? (skips : Nat → Bool) (places : List Nat)
    {items other : List (Nat × α)} (h : other.length = items.length) :
    ∃ left : List (Nat × α), left.length = (places.foldl pass items).length ∧
      places.foldlM (fun buffers place => passSkipping? (skips place) buffers place)
        (items.toArray, other.toArray) =
          some ((places.foldl pass items).toArray, left.toArray) := by
  induction places generalizing items other with
  | nil => exact ⟨other, h, rfl⟩
  | cons place places ih =>
    obtain ⟨left, hleft, hpass⟩ := exists_passSkipping? (skips place) place h
    rw [List.foldlM_cons, List.foldl_cons, hpass]
    exact ih hleft

/-- Sorting in two buffers keeps within them, and comes to the radix sort, whichever passes are left
out. -/
theorem sortSkipping?_eq (skips : Nat → Bool) (places : Nat) (items : List (Nat × α)) :
    sortSkipping? skips places items = some (sort places items) := by
  obtain ⟨left, -, hpasses⟩ :=
    exists_foldlM_passSkipping? skips (List.range places) (Eq.refl items.length)
  rw [sortSkipping?, hpasses]
  rfl

/-- A sort without the passes that may be left out keeps within its buffers as well. -/
theorem sort?_eq (places : Nat) (items : List (Nat × α)) :
    sort? places items = some (sort places items) :=
  sortSkipping?_eq (fun _ => true) places items

/-! ### Keys of so many bytes -/

/-- Sorting by the keys of a function is a stable sort: the result has the same items, their keys do
not fall, and items with equal keys stay in order.  It is what a merge sort makes, and what the
passes between two buffers make, whichever of them are left out. -/
theorem sortByKey_stable (width : Nat) (key : α → BitVec (8 * width)) (items : List α) :
    let sorted := sortByKey width (fun a => (key a).toNat) items
    sorted.Perm items ∧ (sorted.Pairwise fun a b => key a ≤ key b) ∧
      (∀ k, (sorted.filter fun a => key a = k) = items.filter fun a => key a = k) ∧
      sorted = items.mergeSort (fun a b => key a ≤ key b) ∧
      ∀ skips : Nat → Bool,
        (sortSkipping? skips width (items.map fun a => ((key a).toNat, a))).map
          (List.map Prod.snd) = some sorted := by
  intro sorted
  have hsmall : ∀ a ∈ items, (key a).toNat < base ^ width := fun a _ => by
    have hbytes : 2 ^ (8 * width) = base ^ width := Nat.pow_mul 2 8 width
    exact hbytes ▸ (key a).isLt
  have hmerge : sorted = items.mergeSort fun a b => key a ≤ key b := sortByKey_eq_mergeSort hsmall
  have hstable : IsStableSort (fun a => (key a).toNat) items sorted :=
    hmerge ▸ isStableSort_mergeSort (fun a => (key a).toNat) items
  refine ⟨hmerge ▸ List.mergeSort_perm items _, hstable.ordered, fun k => ?_, hmerge,
    fun skips => ?_⟩
  · have hkept := hstable.kept k.toNat
    simpa only [BitVec.toNat_inj] using hkept
  · rw [sortSkipping?_eq]
    rfl

end Collate.Radix
