import Collate.Proofs.Json.Atoms

/-!
# Containers that were written

Lists, records and variants are read back, in either spacing, where their parts are
(`Json.Reader.readsJson_list`, `Json.Reader.readsJson_recordOf`, `Json.Reader.readsJson_variant`).
-/

namespace Collate.Json

/-! ### Written texts -/

/-- A value as it is written. -/
def written (spacing : Spacing) (value : Json) : List UInt8 := Text.bytes (render spacing value)

/-- The bytes of a character of ASCII. -/
def byte (c : Char) : UInt8 := UInt8.ofNat c.toNat

theorem bytes_newline (spacing : Spacing) : ∀ b ∈ Text.bytes spacing.newline, isBlank b := by
  cases spacing with
  | tight => exact List.forall_mem_nil _
  | lines depth =>
    have hascii : ∀ c ∈ '\n' :: List.replicate (2 * depth) ' ', c.toNat < 128 := by
      intro c hc
      rcases List.mem_cons.1 hc with rfl | hc
      · decide
      · rw [List.eq_of_mem_replicate hc]
        decide
    rw [Spacing.newline, Text.bytes_ofList_of_ascii hascii]
    intro b hb
    obtain ⟨c, hc, rfl⟩ := List.mem_map.1 hb
    rcases List.mem_cons.1 hc with rfl | hc
    · rfl
    · rw [List.eq_of_mem_replicate hc]
      rfl

theorem bytes_colon (spacing : Spacing) : ∃ blanks, (∀ b ∈ blanks, isBlank b) ∧
    Text.bytes spacing.colon = byte ':' :: blanks := by
  cases spacing with
  | tight => exact ⟨[], List.forall_mem_nil _, rfl⟩
  | lines depth => exact ⟨[byte ' '], List.forall_mem_singleton.2 rfl, rfl⟩

theorem written_array_cons (spacing : Spacing) (item : Json) (items : List Json) :
    written spacing (.array (item :: items)) = byte '[' :: (Text.bytes spacing.deeper.newline ++
      (written spacing.deeper item ++ (Text.bytes (renderItems spacing.deeper items) ++
        (Text.bytes spacing.newline ++ [byte ']'])))) := by
  rw [written, render]
  simp only [Text.bytes_append, List.append_assoc]
  rfl

theorem written_object_cons (spacing : Spacing) (name : String) (value : Json)
    (members : List (String × Json)) :
    written spacing (.object ((name, value) :: members)) =
      byte '\x7b' :: (Text.bytes spacing.deeper.newline ++ (Text.bytes (quote name) ++
        (Text.bytes spacing.deeper.colon ++ (written spacing.deeper value ++
          (Text.bytes (renderMembers spacing.deeper members) ++
            (Text.bytes spacing.newline ++ [byte '\x7d'])))))) := by
  rw [written, render]
  simp only [Text.bytes_append, List.append_assoc]
  rfl

theorem exists_cons_written_object (spacing : Spacing) (members : List (String × Json)) :
    ∃ bs, written spacing (.object members) = byte '\x7b' :: bs := by
  rcases members with _ | ⟨⟨name, value⟩, members⟩
  · exact ⟨_, rfl⟩
  · exact ⟨_, written_object_cons spacing name value members⟩

theorem bytes_renderItems_cons (spacing : Spacing) (item : Json) (items : List Json) :
    Text.bytes (renderItems spacing (item :: items)) = byte ',' :: (Text.bytes spacing.newline ++
      (written spacing item ++ Text.bytes (renderItems spacing items))) := by
  rw [renderItems]
  simp only [Text.bytes_append, List.append_assoc]
  rfl

theorem bytes_renderMembers_cons (spacing : Spacing) (name : String) (value : Json)
    (members : List (String × Json)) :
    Text.bytes (renderMembers spacing ((name, value) :: members)) =
      byte ',' :: (Text.bytes spacing.newline ++ (Text.bytes (quote name) ++
        (Text.bytes spacing.colon ++ (written spacing value ++
          Text.bytes (renderMembers spacing members))))) := by
  rw [renderMembers]
  simp only [Text.bytes_append, List.append_assoc]
  rfl

/-- What is written begins with something that is neither blank nor the end of a list. -/
theorem exists_cons_written (spacing : Spacing) (value : Json) : ∃ b bs,
    written spacing value = b :: bs ∧ isBlank b = false ∧ Char.ofUInt8 b ≠ ']' := by
  cases value with
  | null => exact ⟨_, _, rfl, rfl, by decide⟩
  | bool value => cases value <;> exact ⟨_, _, rfl, rfl, by decide⟩
  | number n =>
    obtain ⟨b, bs, hb, hfirst⟩ := Reader.exists_cons_bytes_decimal n
    refine ⟨b, bs, hb, Reader.isBlank_of_numeral hfirst, fun heq => ?_⟩
    rw [heq] at hfirst
    exact absurd hfirst (by decide)
  | string s =>
    obtain ⟨bs, hbs⟩ := Reader.exists_cons_bytes_quote s
    exact ⟨_, bs, hbs, rfl, by decide⟩
  | array items =>
    cases items with
    | nil => exact ⟨_, _, rfl, rfl, by decide⟩
    | cons item items => exact ⟨_, _, written_array_cons spacing item items, rfl, by decide⟩
  | object members =>
    obtain ⟨bs, hbs⟩ := exists_cons_written_object spacing members
    exact ⟨_, bs, hbs, rfl, by decide⟩

/-- Only `null` begins as it does. -/
theorem eq_null_of_written {spacing : Spacing} {value : Json} {b : UInt8} {bs : List UInt8}
    (h : written spacing value = b :: bs) (hb : Char.ofUInt8 b = 'n') : value = .null := by
  have hhead : ∀ c cs, written spacing value = c :: cs → Char.ofUInt8 c = 'n' := by
    intro c cs hc
    rwa [← (List.cons.inj (h.symm.trans hc)).1]
  cases value with
  | null => rfl
  | bool value => cases value <;> exact absurd (hhead _ _ rfl) (by decide)
  | number n =>
    obtain ⟨c, cs, hc, hfirst⟩ := Reader.exists_cons_bytes_decimal n
    rw [hhead c cs hc] at hfirst
    exact absurd hfirst (by decide)
  | string s =>
    obtain ⟨cs, hcs⟩ := Reader.exists_cons_bytes_quote s
    exact absurd (hhead _ _ hcs) (by decide)
  | array items =>
    cases items with
    | nil => exact absurd (hhead _ _ rfl) (by decide)
    | cons item items => exact absurd (hhead _ _ (written_array_cons _ _ _)) (by decide)
  | object members =>
    obtain ⟨cs, hcs⟩ := exists_cons_written_object spacing members
    exact absurd (hhead _ _ hcs) (by decide)

namespace Reader

variable {α σ : Type}

/-- The reader reads the value back in every spacing. -/
def ReadsJson (r : Reader α) (value : Json) (a : α) : Prop :=
  ∀ spacing, Reads r (written spacing value) a

theorem stops_cons {b : UInt8} {rest : List UInt8}
    (h : Char.ofUInt8 b ∈ [',', ']', '\x7d', '\n']) : Stops (b :: rest) := by
  intro c hc
  obtain rfl : b = c := Option.some.inj hc
  exact h

/-- What stands before a closing bracket stops. -/
theorem stops_newline (spacing : Spacing) {b : UInt8} {rest : List UInt8}
    (h : Char.ofUInt8 b ∈ [',', ']', '\x7d', '\n']) :
    Stops (Text.bytes spacing.newline ++ b :: rest) := by
  cases spacing with
  | tight => exact stops_cons h
  | lines depth =>
    have hnewline : ∃ bs, Text.bytes (Spacing.lines depth).newline = byte '\n' :: bs := by
      rw [Spacing.newline, Text.bytes_eq_flatMap, String.toList_ofList, List.flatMap_cons]
      exact ⟨_, rfl⟩
    obtain ⟨bs, hbs⟩ := hnewline
    rw [hbs, List.cons_append]
    exact stops_cons (by decide)

/-! ### Atoms -/

theorem readsJson_natural {title : String} {bits n : Nat} (hbits : bits ≤ 64) (hn : n < 2 ^ bits) :
    ReadsJson (natural title bits) (.ofNat n) n := by
  intro spacing
  rw [written, Json.ofNat, render]
  exact reads_natural hbits hn

theorem readsJson_size {n : Nat} (hn : n < 2 ^ 64) : ReadsJson size (.ofNat n) n :=
  readsJson_natural (Nat.le_refl _) hn

theorem readsJson_integer {title : String} {low high n : Int} (hlow : low ≤ n) (hhigh : n < high)
    (hmin : -2 ^ 63 ≤ n) (hmax : n < 2 ^ 64) :
    ReadsJson (integer title low high) (.number n) n := by
  intro spacing
  rw [written, render]
  exact reads_integer hlow hhigh hmin hmax

theorem readsJson_text {title s : String} : ReadsJson (text title) (.string s) s := by
  intro spacing
  rw [written, render]
  exact reads_text

/-! ### Lists -/

theorem nextItem_end {first : Bool} {blanks rest : List UInt8} (hblanks : ∀ b ∈ blanks, isBlank b) :
    nextItem first (blanks ++ byte ']' :: rest) = .ok (false, byte ']' :: rest) := by
  rw [nextItem, bind_apply (next_apply hblanks rfl)]
  rfl

theorem nextItem_first {blanks rest : List UInt8} {b : UInt8} (hblanks : ∀ b ∈ blanks, isBlank b)
    (hb : isBlank b = false) (hend : Char.ofUInt8 b ≠ ']') :
    nextItem true (blanks ++ b :: rest) = .ok (true, b :: rest) := by
  rw [nextItem, bind_apply (next_apply hblanks hb)]
  simp only [if_true]
  rfl

theorem nextItem_comma {blanks rest : List UInt8} {b : UInt8} (hblanks : ∀ b ∈ blanks, isBlank b)
    (hb : isBlank b = false) (hend : Char.ofUInt8 b ≠ ']') :
    nextItem false (byte ',' :: (blanks ++ b :: rest)) = .ok (true, b :: rest) := by
  rw [nextItem, bind_apply (next_cons rfl)]
  show (drop >>= fun _ => _) (byte ',' :: _) = _
  rw [bind_apply (drop_apply _ _), bind_apply (next_apply hblanks hb), if_neg hend]
  rfl

theorem nextItem_written {blanks : List UInt8} (hblanks : ∀ b ∈ blanks, isBlank b)
    (spacing : Spacing) (value : Json) (rest : List UInt8) :
    nextItem true (blanks ++ (written spacing value ++ rest)) =
        .ok (true, written spacing value ++ rest) ∧
      nextItem false (byte ',' :: (blanks ++ (written spacing value ++ rest))) =
        .ok (true, written spacing value ++ rest) := by
  obtain ⟨b, bs, hb, hblank, hend⟩ := exists_cons_written spacing value
  rw [hb]
  exact ⟨nextItem_first hblanks hblank hend, nextItem_comma hblanks hblank hend⟩

theorem stops_renderItems (spacing : Spacing) (values : List Json) (rest : List UInt8) :
    Stops (Text.bytes (renderItems spacing.deeper values) ++
      (Text.bytes spacing.newline ++ byte ']' :: rest)) := by
  cases values with
  | nil => exact stops_newline spacing (by decide)
  | cons value values =>
    rw [bytes_renderItems_cons]
    exact stops_cons (by decide)

variable {item : Reader α}

/-- An item is read, after which the other items are. -/
theorem items_step {value : Json} {a : α} (hread : ReadsJson item value a) (spacing : Spacing)
    {fuel : Nat} {first : Bool} {bs rest : List UInt8} (hstop : Stops rest)
    (hitem : nextItem first bs = .ok (true, written spacing value ++ rest)) :
    items item (fuel + 1) first bs = (items item fuel false >>= fun as => return a :: as) rest := by
  rw [items, bind_apply hitem, if_pos rfl]
  exact bind_apply (hread spacing [] rest (List.forall_mem_nil _) hstop)

theorem items_apply {values : List Json} {as : List α} (h : List.Forall₂ (ReadsJson item) values as)
    (spacing : Spacing) {fuel : Nat} (hfuel : values.length < fuel) (rest : List UInt8) :
    items item fuel false (Text.bytes (renderItems spacing.deeper values) ++
        (Text.bytes spacing.newline ++ byte ']' :: rest)) = .ok (as, rest) := by
  induction h generalizing fuel with
  | nil =>
    obtain ⟨fuel, rfl⟩ := Nat.exists_eq_succ_of_ne_zero (Nat.ne_zero_of_lt hfuel)
    show items item (fuel + 1) false (Text.bytes spacing.newline ++ byte ']' :: rest) = _
    rw [items, bind_apply (nextItem_end (bytes_newline spacing))]
    rfl
  | @cons value a values as hvalue hvalues ih =>
    obtain ⟨fuel, rfl⟩ := Nat.exists_eq_succ_of_ne_zero (Nat.ne_zero_of_lt hfuel)
    rw [bytes_renderItems_cons]
    simp only [List.cons_append, List.append_assoc]
    rw [items_step hvalue _ (stops_renderItems spacing _ rest)
      (nextItem_written (bytes_newline _) _ _ _).2,
      bind_apply (ih (Nat.lt_of_succ_lt_succ hfuel))]
    rfl

theorem length_le_bytes_renderItems (spacing : Spacing) (values : List Json) :
    values.length ≤ (Text.bytes (renderItems spacing values)).length := by
  induction values with
  | nil => exact Nat.zero_le _
  | cons value values ih =>
    rw [bytes_renderItems_cons, List.length_cons, List.length_cons, List.length_append,
      List.length_append]
    omega

/-- A list is read back where its items are. -/
theorem readsJson_list {depth : Nat} {reader : Nat → Reader α} {values : List Json} {as : List α}
    (h : List.Forall₂ (ReadsJson (reader depth)) values as) :
    ReadsJson (list (depth + 1) reader) (.array values) as := by
  intro spacing blanks rest hblanks _
  cases h with
  | nil =>
    have hempty : written spacing (.array []) = [byte '[', byte ']'] := rfl
    rw [hempty, list, List.cons_append, bind_apply (next_apply hblanks rfl)]
    rfl
  | @cons value a values as hvalue hvalues =>
    rw [written_array_cons, list, List.cons_append, bind_apply (next_apply hblanks rfl)]
    simp only [List.append_assoc, List.singleton_append]
    refine (bind_apply (drop_apply _ _)).trans ?_
    show items (reader depth) (_ + 1) true _ = _
    rw [items_step hvalue _ (stops_renderItems spacing _ rest)
      (nextItem_written (bytes_newline _) _ _ _).1,
      bind_apply (items_apply hvalues spacing ?_ rest)]
    · rfl
    · have := length_le_bytes_renderItems spacing.deeper values
      simp only [List.length_append, List.length_cons]
      omega

end Reader

end Collate.Json
