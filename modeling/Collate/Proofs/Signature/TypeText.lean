import Mathlib
import Collate.Schema.ColumnType

/-!
# Canonical spellings of types

The canonical spellings of column types are prefix-free (`ColumnType.eq_of_canonical_append`): a
type can be read off the front of a text that begins with its spelling.  None of them holds a colon
(`ColumnType.colon_notMem_canonical`).
-/

namespace Collate

/-! ### Numerals -/

namespace Text

theorem isDigit_of_mem_repr {n : Nat} {c : Char} (h : c ∈ (toString n).toList) : c.isDigit := by
  rw [show toString n = n.repr from rfl, Nat.toList_repr] at h
  exact Nat.isDigit_of_mem_toDigits (by decide) (by decide) h

theorem isDigit_or_minus_of_mem_repr {k : Int} {c : Char} (h : c ∈ (toString k).toList) :
    (c.isDigit || c == '-') = true := by
  cases k with
  | ofNat n => rw [isDigit_of_mem_repr (n := n) h, Bool.true_or]
  | negSucc n =>
    have hlist : (toString (Int.negSucc n)).toList = '-' :: (toString (n + 1)).toList := by
      show ("-" ++ toString (n + 1)).toList = _
      rw [String.toList_append]
      rfl
    rw [hlist, List.mem_cons] at h
    rcases h with rfl | h
    · rfl
    · rw [isDigit_of_mem_repr h, Bool.true_or]

/-- A text of characters of one kind ends where the first character of another kind follows. -/
theorem eq_of_append_cons {p : Char → Bool} {u v rest rest' : List Char} {c d : Char}
    (hu : ∀ a ∈ u, p a) (hv : ∀ a ∈ v, p a) (hc : p c = false) (hd : p d = false)
    (h : u ++ c :: rest = v ++ d :: rest') : u = v ∧ c :: rest = d :: rest' := by
  have hcu : (u ++ c :: rest).takeWhile p = u := by
    rw [List.takeWhile_append_of_pos hu, List.takeWhile_cons_of_neg (by simp [hc]), List.append_nil]
  have hdv : (v ++ d :: rest').takeWhile p = v := by
    rw [List.takeWhile_append_of_pos hv, List.takeWhile_cons_of_neg (by simp [hd]), List.append_nil]
  have huv : u = v := by rw [← hcu, h, hdv]
  subst huv
  exact ⟨rfl, List.append_cancel_left h⟩

theorem eq_of_toString_nat_append {m n : Nat} {c d : Char} {rest rest' : List Char}
    (hc : c.isDigit = false) (hd : d.isDigit = false)
    (h : (toString m).toList ++ c :: rest = (toString n).toList ++ d :: rest') :
    m = n ∧ c :: rest = d :: rest' := by
  obtain ⟨hnum, hrest⟩ := eq_of_append_cons (fun a => isDigit_of_mem_repr)
    (fun a => isDigit_of_mem_repr) hc hd h
  exact ⟨Nat.repr_injective (String.toList_injective hnum), hrest⟩

theorem eq_of_toString_int_append {k l : Int} {c d : Char} {rest rest' : List Char}
    (hc : (c.isDigit || c == '-') = false) (hd : (d.isDigit || d == '-') = false)
    (h : (toString k).toList ++ c :: rest = (toString l).toList ++ d :: rest') :
    k = l ∧ c :: rest = d :: rest' := by
  obtain ⟨hnum, hrest⟩ := eq_of_append_cons (p := fun c => c.isDigit || c == '-')
    (fun a => isDigit_or_minus_of_mem_repr) (fun a => isDigit_or_minus_of_mem_repr) hc hd h
  exact ⟨Int.repr_injective (String.toList_injective hnum), hrest⟩

end Text

namespace ColumnType

/-- The spelling of a type without its parameters. -/
def tag (t : ColumnType) : List Char := t.name.toList.map Char.toLower

theorem toList_canonical (t : ColumnType) :
    t.canonical.toList = t.tag ++ (t.parameters ",").toList := by
  rw [canonical, String.toList_append, String.toLower, String.toList_map, tag]

/-- All spellings of types without their parameters. -/
def tags : List (List Char) := (decimal128 0 0 :: simple).map tag

theorem tag_mem_tags (t : ColumnType) : t.tag ∈ tags := by
  cases t with
  | decimal128 precision scale => exact List.mem_cons_self
  | _ => decide

theorem tags_prefixFree : ∀ a ∈ tags, ∀ b ∈ tags, a <+: b → a = b := by decide

theorem colon_notMem_tags : ∀ a ∈ tags, ':' ∉ a := by decide

theorem find?_tag (t : ColumnType) : simple.find? (fun u => u.tag = t.tag) =
    match t with
    | decimal128 _ _ => none
    | t => some t := by
  cases t with
  | decimal128 precision scale =>
    show simple.find? (fun u => u.tag = (decimal128 0 0).tag) = none
    decide
  | _ => decide

/-- The spelling without parameters tells the type, up to the parameters. -/
theorem eq_of_tag_eq {t t' : ColumnType} (h : t.tag = t'.tag) :
    t = t' ∨ ∃ p s p' s', t = decimal128 p s ∧ t' = decimal128 p' s' := by
  have hfind := find?_tag t
  rw [h, find?_tag t'] at hfind
  cases t with
  | decimal128 p s =>
    cases t' with
    | decimal128 p' s' => exact Or.inr ⟨p, s, p', s', rfl, rfl⟩
    | _ => cases hfind
  | _ =>
    cases t' with
    | decimal128 p' s' => cases hfind
    | _ => exact Or.inl (Option.some.inj hfind).symm

theorem toList_parameters_decimal128 (p : UInt8) (s : Int8) :
    ((decimal128 p s).parameters ",").toList =
      '(' :: ((toString p.toNat).toList ++ ',' :: ((toString s.toInt).toList ++ [')'])) := by
  rw [parameters]
  simp only [String.toList_append]
  simp

/-- The spellings are prefix-free: the type can be read off the front of a text. -/
theorem eq_of_canonical_append {t t' : ColumnType} {rest rest' : List Char}
    (h : t.canonical.toList ++ rest = t'.canonical.toList ++ rest') : t = t' ∧ rest = rest' := by
  rw [toList_canonical, toList_canonical, List.append_assoc, List.append_assoc] at h
  have htag : t.tag = t'.tag := by
    rcases List.prefix_or_prefix_of_prefix (List.prefix_append t.tag _)
      (h ▸ List.prefix_append t'.tag _) with hle | hle
    · exact tags_prefixFree _ (tag_mem_tags t) _ (tag_mem_tags t') hle
    · exact (tags_prefixFree _ (tag_mem_tags t') _ (tag_mem_tags t) hle).symm
  rw [htag] at h
  have hparams := List.append_cancel_left h
  rcases eq_of_tag_eq htag with rfl | ⟨p, s, p', s', rfl, rfl⟩
  · exact ⟨rfl, List.append_cancel_left hparams⟩
  · rw [toList_parameters_decimal128, toList_parameters_decimal128] at hparams
    simp only [List.cons_append, List.append_assoc, List.cons.injEq, true_and] at hparams
    obtain ⟨hp, hscale⟩ := Text.eq_of_toString_nat_append rfl rfl hparams
    obtain ⟨hs, hrest⟩ := Text.eq_of_toString_int_append rfl rfl (List.cons.inj hscale).2
    refine ⟨?_, (List.cons.inj hrest).2⟩
    rw [UInt8.toNat_inj.1 hp, Int8.toInt_inj.1 hs]

theorem colon_notMem_canonical (t : ColumnType) : ':' ∉ t.canonical.toList := by
  rw [toList_canonical, List.mem_append, not_or]
  refine ⟨colon_notMem_tags _ (tag_mem_tags t), ?_⟩
  cases t with
  | decimal128 p s =>
    rw [toList_parameters_decimal128]
    have hp : ':' ∉ (toString p.toNat).toList := fun h => by
      have := Text.isDigit_of_mem_repr h
      revert this
      decide
    have hs : ':' ∉ (toString s.toInt).toList := fun h => by
      have := Text.isDigit_or_minus_of_mem_repr h
      revert this
      decide
    simp only [List.mem_cons, List.mem_append, hp, hs, List.not_mem_nil, or_false, false_or]
    decide
  | _ => exact List.not_mem_nil

end ColumnType

end Collate
