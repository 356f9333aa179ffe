import Mathlib
import Collate.Engine.InPlaceSorter

/-!
# Moving values together

The in-place engine moves the values that are not null to one end of the buffer in which they stand.
The loop reads the buffer from that end on and writes there, so positions are counted from it
(`place`).  After any number of turns the values found so far stand together at that end, and no
position that is still to be read has been written (`Gathered`, `gathered_after`).  So the values
end up in order of arrival and away from where the nulls go (`extract_compact`).
-/

namespace Collate

namespace Placement

theorem stop_sub_start_validRange (p : Placement) (total nulls : Nat) :
    (p.validRange total nulls).stop - (p.validRange total nulls).start = total - nulls :=
  Nat.add_sub_cancel_left ..

theorem stop_validRange_le (o : NullOrder) {total nulls : Nat} (h : nulls ≤ total) :
    ((ofNullOrder o).validRange total nulls).stop ≤ total := by
  cases o <;> simp only [ofNullOrder, validRange, Region.offset] <;> omega

end Placement

namespace Compaction

variable {α : Type} {isValid : Nat → Bool} {values : Array α}

theorem size_copy (values : Array α) (source target : Nat) :
    (copy values source target).size = values.size := by
  unfold copy
  cases values[source]? <;> simp

theorem getElem?_copy_self {source target : Nat} (hs : source < values.size)
    (ht : target < values.size) : (copy values source target)[target]? = values[source]? := by
  simp [copy, hs, ht]

theorem getElem?_copy_ne {source target i : Nat} (h : i ≠ target) :
    (copy values source target)[i]? = values[i]? := by
  unfold copy
  cases values[source]? with
  | none => rfl
  | some a => exact Array.getElem?_setIfInBounds_ne (Ne.symm h)

/-! ### The loop, turn by turn -/

/-- A position of the buffer, counted from the end to which the values go. -/
def place (o : NullOrder) (size i : Nat) : Nat :=
  match o with
  | .first => size - 1 - i
  | .last => i

theorem place_lt {o : NullOrder} {size i : Nat} (h : i < size) : place o size i < size := by
  cases o with
  | first => simp only [place]; omega
  | last => exact h

theorem place_inj {o : NullOrder} {size i j : Nat} (hi : i < size) (hj : j < size) :
    place o size i = place o size j ↔ i = j := by
  cases o with
  | first => simp only [place]; omega
  | last => rfl

theorem map_place_first (size : Nat) :
    (List.range size).map (place .first size) = (List.range size).reverse := by
  rw [List.range_eq_range', List.reverse_range', ← List.range_eq_range', Nat.zero_add]
  rfl

/-- How many values the loop has found, and the buffer as it is by then. -/
structure Progress (α : Type) where
  found : Nat
  buffer : Array α

/-- One turn of the loop: a value that it reads goes behind those that it has found. -/
def turn (o : NullOrder) (isValid : Nat → Bool) (size i : Nat) (p : Progress α) : Progress α :=
  if isValid (place o size i) then
    ⟨p.found + 1, copy p.buffer (place o size i) (place o size p.found)⟩
  else p

/-- The loop after so many turns. -/
def after (o : NullOrder) (isValid : Nat → Bool) (values : Array α) : (turns : Nat) → Progress α
  | 0 => ⟨0, values⟩
  | turns + 1 => turn o isValid values.size turns (after o isValid values turns)

theorem after_succ_of_valid {o : NullOrder} {turns : Nat}
    (h : isValid (place o values.size turns)) : after o isValid values (turns + 1) =
      ⟨(after o isValid values turns).found + 1, copy (after o isValid values turns).buffer
        (place o values.size turns) (place o values.size (after o isValid values turns).found)⟩ :=
  if_pos h

theorem after_succ_of_not_valid {o : NullOrder} {turns : Nat}
    (h : ¬isValid (place o values.size turns)) :
    after o isValid values (turns + 1) = after o isValid values turns :=
  if_neg h

theorem toFront_after (isValid : Nat → Bool) (values : Array α) (turns left : Nat) :
    toFront isValid (List.range' turns left) (after .last isValid values turns).found
        (after .last isValid values turns).buffer =
      (after .last isValid values (turns + left)).buffer := by
  induction left generalizing turns with
  | zero => rfl
  | succ left ih =>
    rw [List.range'_succ, Nat.add_comm left 1, ← Nat.add_assoc, ← ih (turns + 1), toFront]
    by_cases hread : isValid turns
    · rw [if_pos hread, after_succ_of_valid hread]
      rfl
    · rw [if_neg hread, after_succ_of_not_valid hread]

theorem toBack_after (isValid : Nat → Bool) (values : Array α) (turns left : Nat) :
    toBack isValid ((List.range' turns left).map (place .first values.size))
        (values.size - (after .first isValid values turns).found)
        (after .first isValid values turns).buffer =
      (after .first isValid values (turns + left)).buffer := by
  induction left generalizing turns with
  | zero => rfl
  | succ left ih =>
    rw [List.range'_succ, List.map_cons, Nat.add_comm left 1, ← Nat.add_assoc, ← ih (turns + 1),
      toBack]
    by_cases hread : isValid (place .first values.size turns)
    · have htarget : ∀ found, place .first values.size found = values.size - found - 1 :=
        fun found => Nat.sub_right_comm ..
      rw [if_pos hread, after_succ_of_valid hread,
        htarget (after .first isValid values turns).found]
      rfl
    · rw [if_neg hread, after_succ_of_not_valid hread]

/-- Where there is a null, values are moved by as many turns as there are positions. -/
theorem compact_eq_after (o : NullOrder) {cells : Array (Option α)}
    (h : ¬cells.all Option.isSome) (values : Array α) :
    compact o cells values =
      (after o (fun i => (cells[i]?.join).isSome) values values.size).buffer := by
  have hloop := toFront_after (fun i => (cells[i]?.join).isSome) values 0 values.size
  have hback := toBack_after (fun i => (cells[i]?.join).isSome) values 0 values.size
  rw [Nat.zero_add, ← List.range_eq_range'] at hloop hback
  unfold compact
  simp only [if_neg h]
  cases o with
  | first => rwa [map_place_first] at hback
  | last => exact hloop

/-! ### What every turn keeps -/

/-- The positions of the values that the loop finds in some turns. -/
def foundIn (o : NullOrder) (isValid : Nat → Bool) (size turns : Nat) : List Nat :=
  ((List.range turns).map (place o size)).filter isValid

theorem foundIn_succ (o : NullOrder) (isValid : Nat → Bool) (size turns : Nat) :
    foundIn o isValid size (turns + 1) = foundIn o isValid size turns ++
      if isValid (place o size turns) then [place o size turns] else [] := by
  rw [foundIn, List.range_succ, List.map_append, List.filter_append]
  cases h : isValid (place o size turns) <;> simp [foundIn, h]

theorem length_foundIn_le (o : NullOrder) (isValid : Nat → Bool) (size turns : Nat) :
    (foundIn o isValid size turns).length ≤ turns :=
  List.length_filter_le _ _ |>.trans_eq (by simp)

theorem foundIn_first (isValid : Nat → Bool) (size : Nat) :
    foundIn .first isValid size size = ((List.range size).filter isValid).reverse := by
  rw [foundIn, map_place_first, List.filter_reverse]

theorem foundIn_last (isValid : Nat → Bool) (size : Nat) :
    foundIn .last isValid size size = (List.range size).filter isValid :=
  congrArg (List.filter isValid) (List.map_id _)

/-- Of the buffer after some turns: the values found stand together and in order, and what is still
to be read is as it was. -/
structure Gathered (o : NullOrder) (isValid : Nat → Bool) (values : Array α) (turns : Nat)
    (p : Progress α) : Prop where
  size : p.buffer.size = values.size
  found : p.found = (foundIn o isValid values.size turns).length
  written : ∀ i < p.found, p.buffer[place o values.size i]? =
    (foundIn o isValid values.size turns)[i]?.bind fun read => values[read]?
  unread : ∀ i, turns ≤ i → i < values.size →
    p.buffer[place o values.size i]? = values[place o values.size i]?

variable {o : NullOrder} {turns : Nat} {p : Progress α}

/-- A turn keeps this: as many places at most are written as were read, so the one that it writes
was read before, or in this turn. -/
theorem Gathered.turn (h : Gathered o isValid values turns p) (hlt : turns < values.size) :
    Gathered o isValid values (turns + 1) (turn o isValid values.size turns p) := by
  have hfound : p.found ≤ turns := h.found.trans_le (length_foundIn_le ..)
  have hsucc := foundIn_succ o isValid values.size turns
  unfold Compaction.turn
  split_ifs at hsucc ⊢ with hread
  · have hother : ∀ {i}, i < values.size → i ≠ p.found →
        (copy p.buffer (place o values.size turns) (place o values.size p.found))[
          place o values.size i]? = p.buffer[place o values.size i]? := fun hi hne =>
      getElem?_copy_ne fun heq => hne ((place_inj hi (by omega)).1 heq)
    refine ⟨(size_copy ..).trans h.size, ?_, fun i hi => ?_, fun i hi hsize => ?_⟩
    · rw [hsucc, List.length_append, ← h.found]
      rfl
    · rcases Nat.lt_succ_iff_lt_or_eq.1 hi with hbefore | rfl
      · rw [hother (by omega) (by omega), h.written i hbefore, hsucc,
          List.getElem?_append_left (h.found ▸ hbefore)]
      · have hsource : place o values.size turns < p.buffer.size :=
          (place_lt hlt).trans_eq h.size.symm
        have htarget : place o values.size p.found < p.buffer.size :=
          (place_lt (hfound.trans_lt hlt)).trans_eq h.size.symm
        rw [getElem?_copy_self hsource htarget, h.unread turns le_rfl hlt, hsucc, h.found,
          List.getElem?_concat_length]
        rfl
    · rw [hother hsize (by omega), h.unread i (by omega) hsize]
  · rw [List.append_nil] at hsucc
    refine ⟨h.size, hsucc ▸ h.found, fun i hi => ?_, fun i hi => h.unread i (by omega)⟩
    rw [hsucc]
    exact h.written i hi

/-- So it is after any number of turns. -/
theorem gathered_after (o : NullOrder) (isValid : Nat → Bool) (values : Array α)
    (h : turns ≤ values.size) : Gathered o isValid values turns (after o isValid values turns) := by
  induction turns with
  | zero => exact ⟨rfl, rfl, fun i hi => absurd hi (Nat.not_lt_zero i), fun _ _ _ => rfl⟩
  | succ turns ih => exact (ih (by omega)).turn h

/-! ### Values behind cells -/

/-- Values stand behind cells: one that is not null has its value in its place.  In the place of a
null there may be any value. -/
structure Backs (values : Array α) (cells : Array (Option α)) : Prop where
  size : values.size = cells.size
  value : ∀ {i : Nat} {a : α}, cells[i]? = some (some a) → values[i]? = some a

section Cells

variable {cells : Array (Option α)}

theorem backs_getD (cells : Array (Option α)) (d : α) : Backs (cells.map (·.getD d)) cells where
  size := Array.size_map
  value h := by rw [Array.getElem?_map, h]; rfl

/-- The positions of the values, in order, lead to the values. -/
theorem map_filter_range (h : Backs values cells) :
    ((List.range cells.size).filter fun i => (cells[i]?.join).isSome).map (fun i => values[i]?) =
      cells.toList.reduceOption.map some := by
  have positions : ∀ l : List Nat,
      (l.filter fun i => (cells[i]?.join).isSome).map (fun i => values[i]?) =
        (l.filterMap fun i => cells[i]?.join).map some := by
    intro l
    induction l with
    | nil => rfl
    | cons i l ih =>
      by_cases hi : (cells[i]?.join).isSome
      · obtain ⟨a, ha⟩ := Option.isSome_iff_exists.1 hi
        rw [List.filter_cons, if_pos hi, List.map_cons, ih, h.value (Option.join_eq_some_iff.1 ha),
          List.filterMap_cons, ha]
        rfl
      · rw [List.filter_cons, if_neg hi, ih, List.filterMap_cons,
          Option.not_isSome_iff_eq_none.1 hi]
  have whole : (List.range cells.size).map (fun i => cells[i]?.join) = cells.toList := by
    refine List.ext_getElem? fun i => ?_
    by_cases hi : i < cells.size <;> simp [hi]
  rw [positions, List.reduceOption, ← whole, List.filterMap_map]
  rfl

theorem bind_filter_range (h : Backs values cells) (j : Nat) :
    (((List.range cells.size).filter fun i => (cells[i]?.join).isSome)[j]?.bind fun i =>
      values[i]?) = cells.toList.reduceOption[j]? := by
  have hmap := congrArg (·[j]?.join) (map_filter_range h)
  simp only [List.getElem?_map] at hmap
  have some_join : ∀ o : Option α, (o.map some).join = o := by
    intro o
    cases o <;> rfl
  rw [some_join] at hmap
  rw [← hmap]
  cases ((List.range cells.size).filter fun i => (cells[i]?.join).isSome)[j]? <;> rfl

theorem length_filter_range (h : Backs values cells) :
    ((List.range cells.size).filter fun i => (cells[i]?.join).isSome).length =
      cells.toList.reduceOption.length := by
  simpa using congrArg List.length (map_filter_range h)

theorem length_reduceOption (cells : Array (Option α)) :
    cells.toList.reduceOption.length = cells.size - cells.countP Option.isNone := by
  have h := List.length_eq_reduceOption_length_add_filter_none (l := cells.toList)
  rw [← List.countP_eq_length_filter, Array.countP_toList, Array.length_toList] at h
  omega

theorem all_isSome_iff : cells.all Option.isSome ↔ cells.countP Option.isNone = 0 := by
  rw [Array.countP_eq_zero, Array.all_eq_true_iff_forall_mem]
  simp only [Option.isNone_iff_eq_none, ← ne_eq, Option.ne_none_iff_isSome]

/-- Values without a null among them are those of the cells. -/
theorem Backs.toList_of_all (h : Backs values cells) (hall : cells.all Option.isSome) :
    values.toList = cells.toList.reduceOption := by
  refine List.ext_getElem? fun i => ?_
  rw [← bind_filter_range h, List.filter_eq_self.2 ?_]
  · by_cases hi : i < cells.size <;> simp [hi, h.size]
  · intro i hi
    rw [List.mem_range] at hi
    have := Array.all_eq_true'.1 hall cells[i] (Array.getElem_mem hi)
    simpa [hi] using this

/-! ### Away from the nulls -/

/-- After the last turn the values stand, in order, where the placement has the rows with a
value. -/
theorem getElem?_after (o : NullOrder) (h : Backs values cells) {i : Nat}
    (hi : i < cells.size - cells.countP Option.isNone) :
    (after o (fun i => (cells[i]?.join).isSome) values values.size).buffer[
        ((Placement.ofNullOrder o).validRange cells.size (cells.countP Option.isNone)).start + i]? =
      cells.toList.reduceOption[i]? := by
  have hdone := gathered_after o (fun i => (cells[i]?.join).isSome) values le_rfl
  have hcount : ((List.range cells.size).filter fun i => (cells[i]?.join).isSome).length =
      cells.size - cells.countP Option.isNone :=
    (length_filter_range h).trans (length_reduceOption cells)
  have hwritten := hdone.written
  rw [hdone.found, h.size] at hwritten
  rw [← bind_filter_range h, h.size]
  cases o with
  | first =>
    -- The last value found is the first of the run.
    rw [foundIn_first, List.length_reverse, hcount] at hwritten
    have hlast := hwritten (cells.size - cells.countP Option.isNone - 1 - i) (by omega)
    have hplace : place .first cells.size (cells.size - cells.countP Option.isNone - 1 - i) =
        cells.countP Option.isNone + i := by
      simp only [place]
      omega
    rw [hplace, List.getElem?_reverse (by omega), hcount, Nat.sub_sub_self (by omega)] at hlast
    exact hlast
  | last =>
    rw [foundIn_last, hcount] at hwritten
    have hfirst := hwritten i hi
    rwa [← Nat.zero_add (place .last cells.size i)] at hfirst

/-- Compaction moves the values, in order of arrival, to where the placement has the rows with a
value. -/
theorem extract_compact (o : NullOrder) (h : Backs values cells) :
    (compact o cells values).size = cells.size ∧
      ((compact o cells values).extract
        ((Placement.ofNullOrder o).validRange cells.size (cells.countP Option.isNone)).start
        ((Placement.ofNullOrder o).validRange cells.size
          (cells.countP Option.isNone)).stop).toList =
        cells.toList.reduceOption := by
  by_cases hall : cells.all Option.isSome
  · have hcompact : compact o cells values = values := if_pos hall
    rw [hcompact, all_isSome_iff.1 hall, ← h.toList_of_all hall, ← h.size]
    refine ⟨rfl, ?_⟩
    cases o <;> simp [Placement.ofNullOrder, Placement.validRange, Region.offset]
  · have hdone := gathered_after o (fun i => (cells[i]?.join).isSome) values le_rfl
    have hcount := length_reduceOption cells
    have hnulls : cells.countP Option.isNone ≤ cells.size := Array.countP_le_size
    have hstop := Placement.stop_validRange_le o hnulls
    rw [compact_eq_after o hall]
    have hsize := hdone.size.trans h.size
    refine ⟨hsize, List.ext_getElem? fun i => ?_⟩
    rw [Array.getElem?_toList, Array.getElem?_extract, hsize, Nat.min_eq_left hstop,
      Placement.stop_sub_start_validRange]
    split_ifs with hi
    · exact getElem?_after o h hi
    · rw [List.getElem?_eq_none (by omega)]

end Cells

end Compaction

end Collate
