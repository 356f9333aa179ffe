import Collate.Proofs.Signature.TypeText
import Collate.Signature

/-!
# Reading canonical texts

The names in a canonical text are written as they are.  A name is `Ambiguous` if it holds what could
be the end of another one: a colon, the spelling of a type, and a separator.  Where no name is, the
text can be read in one way only (`eq_of_canonicalText_eq`): it shows the policy, the batch size,
and the names and types of the keys and of the columns.
-/

namespace Collate.Signature

/-- What stands behind the type of a column, if anything does. -/
inductive IsSeparator : String → Prop
  | column : IsSeparator ", "
  | schema : IsSeparator "[schema]"
  | key (i : Nat) : IsSeparator s!"[sort_key_{i + 1}]"

/-- The name holds what could be the end of another name, its type, and a separator. -/
def Ambiguous (name : String) : Prop :=
  ∃ (before : String) (type : ColumnType) (separator after : String), IsSeparator separator ∧
    name = before ++ ": " ++ type.canonical ++ separator ++ after

/-- What a canonical text shows of a column. -/
def shown (c : OutputColumn) : String × ColumnType := (c.name, c.type)

/-! ### One column -/

theorem toList_key (i : Nat) : s!"[sort_key_{i}]".toList =
    ['[', 's', 'o', 'r', 't', '_', 'k', 'e', 'y', '_'] ++ (toString i).toList ++ [']'] := by
  show ("[sort_key_" ++ toString i ++ "]").toList = _
  rw [String.toList_append, String.toList_append]
  rfl

theorem colon_notMem_separator {separator : String} (h : IsSeparator separator) :
    ':' ∉ separator.toList := by
  cases h with
  | column => decide
  | schema => decide
  | key i =>
    have hi : ':' ∉ (toString (i + 1)).toList := fun hm => by
      have := Text.isDigit_of_mem_repr hm
      revert this
      decide
    rw [toList_key, List.mem_append, List.mem_append, not_or, not_or]
    exact ⟨⟨by decide, hi⟩, by decide⟩

/-- A text behind the type of a column: nothing, or a separator and more. -/
def Follows (rest : List Char) : Prop :=
  rest = [] ∨ ∃ separator after, IsSeparator separator ∧ rest = separator.toList ++ after

theorem toList_describe (c : OutputColumn) :
    (describe c).toList = c.name.toList ++ ':' :: ' ' :: c.type.canonical.toList := by
  simp [describe]

/-- Where a longer name begins a text that a shorter one begins too, the longer one is ambiguous. -/
theorem ambiguous_of_length_lt {c c' : OutputColumn} {rest rest' : List Char} (hrest : Follows rest)
    (h : (describe c).toList ++ rest = (describe c').toList ++ rest')
    (hlt : c.name.toList.length < c'.name.toList.length) : Ambiguous c'.name := by
  rw [toList_describe, toList_describe, List.append_assoc, List.append_assoc] at h
  obtain ⟨v, hname, hv⟩ : ∃ v, c'.name.toList = c.name.toList ++ v ∧
      ':' :: ' ' :: c.type.canonical.toList ++ rest =
        v ++ (':' :: ' ' :: c'.type.canonical.toList ++ rest') := by
    rcases List.append_eq_append_iff.1 h with ⟨v, hv, hrest⟩ | ⟨v, hv, -⟩
    · exact ⟨v, hv, hrest⟩
    · rw [hv, List.length_append] at hlt
      omega
  -- The rest of the longer name begins with the colon behind the shorter one, and reaches beyond
  -- the type and the separator, since neither holds the colon behind the longer name.
  obtain ⟨u, rfl⟩ : ∃ u, v = ':' :: ' ' :: u := by
    rcases v with _ | ⟨a, _ | ⟨b, u⟩⟩
    · rw [List.append_nil] at hname
      rw [hname] at hlt
      exact absurd hlt (Nat.lt_irrefl _)
    · simp at hv
    · simp only [List.cons_append, List.cons.injEq] at hv
      exact ⟨u, by rw [hv.1, hv.2.1]⟩
  simp only [List.cons_append, List.cons.injEq, true_and] at hv
  rcases hrest with rfl | ⟨separator, after, hseparator, rfl⟩
  · refine absurd ?_ (ColumnType.colon_notMem_canonical c.type)
    rw [List.append_nil] at hv
    rw [hv]
    simp
  · have ambiguous : ∀ w, u = c.type.canonical.toList ++ separator.toList ++ w →
        Ambiguous c'.name := by
      rintro w rfl
      refine ⟨c.name, c.type, separator, String.ofList w, hseparator, String.toList_injective ?_⟩
      rw [hname]
      simp
    rw [← List.append_assoc] at hv
    rcases List.append_eq_append_iff.1 hv with ⟨w, hw, -⟩ | ⟨w, hw, hafter⟩
    · exact ambiguous w hw
    · cases w with
      | nil => exact ambiguous [] (by rw [hw, List.append_nil, List.append_nil])
      | cons a w =>
        obtain rfl : ':' = a := (List.cons.inj hafter).1
        have hcolon : ':' ∈ c.type.canonical.toList ++ separator.toList := by
          rw [hw]
          simp
        rcases List.mem_append.1 hcolon with hm | hm
        · exact absurd hm (ColumnType.colon_notMem_canonical c.type)
        · exact absurd hm (colon_notMem_separator hseparator)

/-- Names that are not ambiguous are told from what stands behind them. -/
theorem shown_eq_of_describe_append {c c' : OutputColumn} {rest rest' : List Char}
    (hc : ¬Ambiguous c.name) (hc' : ¬Ambiguous c'.name) (hrest : Follows rest)
    (hrest' : Follows rest') (h : (describe c).toList ++ rest = (describe c').toList ++ rest') :
    shown c = shown c' ∧ rest = rest' := by
  rcases Nat.lt_trichotomy c.name.toList.length c'.name.toList.length with hlt | heq | hlt
  · exact absurd (ambiguous_of_length_lt hrest h hlt) hc'
  · rw [toList_describe, toList_describe, List.append_assoc, List.append_assoc] at h
    obtain ⟨hname, hbehind⟩ := List.append_inj h heq
    simp only [List.cons_append, List.cons.injEq, true_and] at hbehind
    obtain ⟨htype, hrest⟩ := ColumnType.eq_of_canonical_append hbehind
    exact ⟨Prod.ext (String.toList_injective hname) htype, hrest⟩
  · exact absurd (ambiguous_of_length_lt hrest' h.symm hlt) hc

/-! ### All columns -/

/-- The keys as they are written, the first of them with the number `i`. -/
def keysText : Nat → List OutputColumn → List Char
  | _, [] => []
  | i, c :: cs => s!"[sort_key_{i}]".toList ++ ((describe c).toList ++ keysText (i + 1) cs)

/-- The columns as they are written. -/
def columnsText : List OutputColumn → List Char
  | [] => []
  | [c] => (describe c).toList
  | c :: cs => (describe c).toList ++ (", ".toList ++ columnsText cs)

theorem follows_columnsText {c : OutputColumn} (cs : List OutputColumn) :
    ∃ rest, columnsText (c :: cs) = (describe c).toList ++ rest ∧ Follows rest ∧
      (cs = [] ∧ rest = [] ∨ cs ≠ [] ∧ rest = ", ".toList ++ columnsText cs) := by
  cases cs with
  | nil => exact ⟨[], (List.append_nil _).symm, Or.inl rfl, Or.inl ⟨rfl, rfl⟩⟩
  | cons c' cs =>
    exact ⟨_, rfl, Or.inr ⟨", ", _, .column, rfl⟩, Or.inr ⟨by simp, rfl⟩⟩

theorem shown_eq_of_columnsText {cs cs' : List OutputColumn} (hcs : ∀ c ∈ cs, ¬Ambiguous c.name)
    (hcs' : ∀ c ∈ cs', ¬Ambiguous c.name) (hne : cs ≠ []) (hne' : cs' ≠ [])
    (h : columnsText cs = columnsText cs') : cs.map shown = cs'.map shown := by
  induction cs generalizing cs' with
  | nil => exact absurd rfl hne
  | cons c cs ih =>
    cases cs' with
    | nil => exact absurd rfl hne'
    | cons c' cs' =>
      rw [List.forall_mem_cons] at hcs hcs'
      obtain ⟨rest, htext, hrest, hcases⟩ := follows_columnsText (c := c) cs
      obtain ⟨rest', htext', hrest', hcases'⟩ := follows_columnsText (c := c') cs'
      rw [htext, htext'] at h
      obtain ⟨hshown, hbehind⟩ := shown_eq_of_describe_append hcs.1 hcs'.1 hrest hrest' h
      rw [List.map_cons, List.map_cons, hshown]
      rcases hcases with ⟨rfl, rfl⟩ | ⟨hne, rfl⟩ <;> rcases hcases' with ⟨rfl, rfl⟩ | ⟨hne', rfl⟩
      · rfl
      · simp at hbehind
      · simp at hbehind
      · rw [ih hcs.2 hcs'.2 hne hne' (List.append_cancel_left hbehind)]

theorem follows_keysText (i : Nat) (cs : List OutputColumn) (rest : List Char) :
    Follows (keysText (i + 1) cs ++ ("[schema]".toList ++ rest)) := by
  cases cs with
  | nil => exact Or.inr ⟨"[schema]", rest, .schema, rfl⟩
  | cons c cs => exact Or.inr ⟨_, _, .key i, by rw [keysText, List.append_assoc]⟩

theorem shown_eq_of_keysText {cs cs' : List OutputColumn} {i : Nat} {rest rest' : List Char}
    (hcs : ∀ c ∈ cs, ¬Ambiguous c.name) (hcs' : ∀ c ∈ cs', ¬Ambiguous c.name)
    (h : keysText i cs ++ ("[schema]".toList ++ rest) =
      keysText i cs' ++ ("[schema]".toList ++ rest')) :
    cs.map shown = cs'.map shown ∧ rest = rest' := by
  have apart : ∀ (i : Nat) (cs : List Char) (rest : List Char),
      s!"[sort_key_{i}]".toList ++ cs ≠ "[schema]".toList ++ rest := by
    intro i cs rest
    rw [toList_key]
    simp
  induction cs generalizing cs' i with
  | nil =>
    cases cs' with
    | nil => exact ⟨rfl, List.append_cancel_left h⟩
    | cons c' cs' =>
      rw [keysText, keysText, List.nil_append, List.append_assoc] at h
      exact absurd h.symm (apart _ _ _)
  | cons c cs ih =>
    cases cs' with
    | nil =>
      rw [keysText, keysText, List.nil_append, List.append_assoc] at h
      exact absurd h (apart _ _ _)
    | cons c' cs' =>
      rw [List.forall_mem_cons] at hcs hcs'
      rw [keysText, keysText, List.append_assoc, List.append_assoc, List.append_assoc,
        List.append_assoc] at h
      obtain ⟨hshown, hbehind⟩ := shown_eq_of_describe_append hcs.1 hcs'.1
        (follows_keysText i cs rest) (follows_keysText i cs' rest') (List.append_cancel_left h)
      obtain ⟨hkeys, hrest⟩ := ih hcs.2 hcs'.2 hbehind
      exact ⟨by rw [List.map_cons, List.map_cons, hshown, hkeys], hrest⟩

/-! ### The whole text -/

/-- The policy as it is written. -/
def policyText (o : NullOrder) (d : Direction) : List Char :=
  s!"[Sorter]{o.label}|{d.label}[batch_size]".toList

theorem eq_of_policyText_append {o o' : NullOrder} {d d' : Direction} {rest rest' : List Char}
    (h : policyText o d ++ rest = policyText o' d' ++ rest') :
    (o = o' ∧ d = d') ∧ rest = rest' := by
  have prefixFree : ∀ o d o' d', policyText o d <+: policyText o' d' → o = o' ∧ d = d' := by
    rintro ⟨⟩ ⟨⟩ ⟨⟩ ⟨⟩ <;> decide
  have hpolicy : o = o' ∧ d = d' := by
    rcases List.prefix_or_prefix_of_prefix (List.prefix_append (policyText o d) _)
      (h ▸ List.prefix_append (policyText o' d') _) with hle | hle
    · exact prefixFree _ _ _ _ hle
    · exact (prefixFree _ _ _ _ hle).imp Eq.symm Eq.symm
  obtain ⟨rfl, rfl⟩ := hpolicy
  exact ⟨⟨rfl, rfl⟩, List.append_cancel_left h⟩

theorem toList_join_mapIdx (i : Nat) (cs : List OutputColumn) :
    (String.join (cs.mapIdx fun j c => s!"[sort_key_{i + j}]" ++ describe c)).toList =
      keysText i cs := by
  induction cs generalizing i with
  | nil => rfl
  | cons c cs ih =>
    rw [List.mapIdx_cons, String.toList_join, List.flatMap_cons, ← String.toList_join, keysText,
      ← ih]
    simp [Nat.add_comm, Nat.add_left_comm]

theorem toList_intercalate_describe (cs : List OutputColumn) :
    (", ".intercalate (cs.map describe)).toList = columnsText cs := by
  induction cs with
  | nil => rfl
  | cons c cs ih =>
    cases cs with
    | nil => simp [columnsText]
    | cons c' cs =>
      rw [columnsText, ← ih]
      simp
      simp

theorem toList_canonicalText (spec : SortSpec) (batchSize : Nat) :
    (canonicalText spec batchSize).toList =
      policyText spec.nullOrder spec.direction ++ ((toString batchSize).toList ++
        (keysText 0 (spec.keys.map spec.column) ++
          ("[schema]".toList ++ columnsText spec.columns))) := by
  have hkeys : String.join (keyTexts spec) = String.join
      ((spec.keys.map spec.column).mapIdx fun j c => s!"[sort_key_{0 + j}]" ++ describe c) := by
    rw [keyTexts]
    congr 1
    refine List.ext_getElem (by simp) fun i h₁ h₂ => ?_
    simp
  rw [canonicalText, hkeys]
  simp only [String.toList_append, toList_join_mapIdx, toList_intercalate_describe, policyText]
  simp

/-- Where no name is ambiguous, the canonical text shows all that it was made of. -/
theorem eq_of_canonicalText_eq {spec spec' : SortSpec} {batchSize batchSize' : Nat}
    (hspec : ∀ c ∈ spec.columns, ¬Ambiguous c.name)
    (hspec' : ∀ c ∈ spec'.columns, ¬Ambiguous c.name)
    (h : canonicalText spec batchSize = canonicalText spec' batchSize') :
    (spec.nullOrder = spec'.nullOrder ∧ spec.direction = spec'.direction) ∧ batchSize = batchSize' ∧
      (spec.keys.map spec.column).map shown = (spec'.keys.map spec'.column).map shown ∧
      spec.columns.map shown = spec'.columns.map shown := by
  have key_mem : ∀ spec : SortSpec, ∀ c ∈ spec.keys.map spec.column, c ∈ spec.columns := by
    intro spec c hc
    obtain ⟨i, -, rfl⟩ := List.mem_map.1 hc
    exact List.getElem_mem _
  have columns_ne : ∀ spec : SortSpec, spec.columns ≠ [] := by
    intro spec
    exact List.ne_nil_of_length_pos (Nat.zero_lt_of_lt spec.firstKey.isLt)
  have hlist := congrArg String.toList h
  rw [toList_canonicalText, toList_canonicalText] at hlist
  obtain ⟨hpolicy, hlist⟩ := eq_of_policyText_append hlist
  have bracket : ∀ (spec : SortSpec) (rest : List Char), ∃ more,
      keysText 0 (spec.keys.map spec.column) ++ rest = '[' :: more := by
    intro spec rest
    rw [SortSpec.keys, List.map_cons, keysText, toList_key]
    exact ⟨_, rfl⟩
  obtain ⟨more, hmore⟩ := bracket spec ("[schema]".toList ++ columnsText spec.columns)
  obtain ⟨more', hmore'⟩ := bracket spec' ("[schema]".toList ++ columnsText spec'.columns)
  rw [hmore, hmore'] at hlist
  obtain ⟨hsize, hlist⟩ := Text.eq_of_toString_nat_append rfl rfl hlist
  rw [← hmore, ← hmore'] at hlist
  obtain ⟨hkeys, hcolumns⟩ := shown_eq_of_keysText (fun c hc => hspec c (key_mem spec c hc))
    (fun c hc => hspec' c (key_mem spec' c hc)) hlist
  exact ⟨hpolicy, hsize, hkeys,
    shown_eq_of_columnsText hspec hspec' (columns_ne _) (columns_ne _) hcolumns⟩

end Collate.Signature
