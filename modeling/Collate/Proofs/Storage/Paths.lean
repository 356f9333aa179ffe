import Mathlib
import Collate.Storage.Volume

/-!
# Paths of files in a directory

A path goes on from the path of a directory by the name of a file.  Its pieces are those of the
directory and the name (`Path.exists_pieces_join`), and its parent spells no more than the directory
(`Path.exists_parent_join`).
-/

namespace Collate.Path

/-! ### Pieces -/

theorem split_eq_splitOn (cs : List Char) : split cs = cs.splitOn '/' := by
  induction cs with
  | nil => rfl
  | cons c cs ih =>
    rw [List.splitOn_cons_eq_if_modifyHead, ← ih, split]
    by_cases hc : c = '/'
    · simp [hc]
    · cases hs : split cs with
      | nil => exact absurd hs (split_ne_nil cs)
      | cons piece rest => simp [hc]

theorem slash_notMem_split {cs piece : List Char} (h : piece ∈ split cs) : '/' ∉ piece := by
  induction cs generalizing piece with
  | nil =>
    rw [split, List.mem_singleton] at h
    rw [h]
    exact List.not_mem_nil
  | cons c cs ih =>
    rw [split] at h
    split_ifs at h with hc
    · rcases List.mem_cons.1 h with rfl | h
      · exact List.not_mem_nil
      · exact ih h
    · cases hs : split cs with
      | nil => exact absurd hs (split_ne_nil cs)
      | cons first rest =>
        rw [hs] at h ih
        rcases List.mem_cons.1 h with rfl | h
        · rw [List.mem_cons, not_or]
          exact ⟨fun heq => hc heq.symm, ih List.mem_cons_self⟩
        · exact ih (List.mem_cons_of_mem _ h)

theorem split_intercalate {pieces : List (List Char)} (hslash : ∀ piece ∈ pieces, '/' ∉ piece)
    (hne : pieces ≠ []) : split (['/'].intercalate pieces) = pieces := by
  rw [split_eq_splitOn]
  exact List.splitOn_intercalate '/' hslash hne

theorem intercalate_split (cs : List Char) : ['/'].intercalate (split cs) = cs := by
  rw [split_eq_splitOn]
  exact List.intercalate_splitOn '/'

/-- The first pieces spell the beginning of the text. -/
theorem intercalate_isPrefix_intercalate {front pieces : List (List Char)} (hne : front ≠ [])
    (h : front <+: pieces) : ['/'].intercalate front <+: ['/'].intercalate pieces := by
  obtain ⟨back, rfl⟩ := h
  induction front with
  | nil => exact absurd rfl hne
  | cons piece front ih =>
    cases front with
    | nil =>
      cases back with
      | nil => exact List.prefix_refl _
      | cons next back =>
        rw [List.singleton_append, List.intercalate_singleton, List.intercalate_cons_cons,
          List.append_assoc]
        exact List.prefix_append _ _
    | cons next front =>
      rw [List.cons_append, List.cons_append, List.intercalate_cons_cons,
        List.intercalate_cons_cons]
      exact List.prefix_append_right_inj _ |>.2 (ih (by simp))

theorem isIdle_iff {piece : List Char} : isIdle piece ↔ Step.ofPiece piece = .stay := by
  rw [isIdle, decide_eq_true_eq]

/-- Only idle pieces are left out at the end. -/
theorem exists_trimEnd (pieces : List (List Char)) :
    ∃ idle, pieces = trimEnd pieces ++ idle ∧ ∀ piece ∈ idle, Step.ofPiece piece = .stay := by
  refine ⟨(pieces.reverse.takeWhile isIdle).reverse, ?_, ?_⟩
  · rw [trimEnd, ← List.reverse_append, List.takeWhile_append_dropWhile, List.reverse_reverse]
  · intro piece hpiece
    exact isIdle_iff.1 (List.mem_takeWhile_imp (List.mem_reverse.1 hpiece))

theorem trimEnd_concat {pieces : List (List Char)} {last : List Char} (h : isIdle last = false) :
    trimEnd (pieces ++ [last]) = pieces ++ [last] := by
  rw [trimEnd, List.reverse_append, List.reverse_singleton, List.singleton_append,
    List.dropWhile_cons_of_neg (by simp [h]), List.reverse_cons, List.reverse_reverse]

/-! ### Going on by a name -/

/-- The name of a file: without slashes and NULs, and more than a dot or two. -/
structure IsName (s : String) : Prop where
  slash : '/' ∉ s.toList
  nul : '\x00' ∉ s.toList
  long : 2 < s.toList.length

variable {p : Path} {s : String}

theorem isRooted_of_isName (hs : IsName s) : isRooted s = false := by
  rw [isRooted, decide_eq_false_iff_not]
  exact fun h => hs.slash (List.mem_of_mem_head? h)

theorem text_join (hs : IsName s) :
    (p.join s).text = p.text ++ s ∨ (p.join s).text = p.text ++ "/" ++ s := by
  rw [join, isRooted_of_isName hs, if_neg Bool.false_ne_true]
  split_ifs
  · exact Or.inl rfl
  · exact Or.inr rfl

theorem text_join_ne (p : Path) (hs : IsName s) : (p.join s).text ≠ "" := by
  intro hempty
  have hnil : s.toList = [] := by
    rcases text_join (p := p) hs with htext | htext <;>
      · rw [htext] at hempty
        have hlist := congrArg String.toList hempty
        rw [String.toList_append] at hlist
        exact (List.append_eq_nil_iff.1 hlist).2
  exact absurd (hnil ▸ hs.long) (by decide)

/-- What stands before a name does not depend on it. -/
theorem exists_text_join (p : Path) :
    ∃ front, ∀ s, IsName s → (p.join s).text = front ++ s := by
  by_cases hp : p.text = "" ∨ p.endsInSlash
  · refine ⟨p.text, fun s hs => ?_⟩
    rw [join, isRooted_of_isName hs, if_neg Bool.false_ne_true, if_pos hp]
  · refine ⟨p.text ++ "/", fun s hs => ?_⟩
    rw [join, isRooted_of_isName hs, if_neg Bool.false_ne_true, if_neg hp]

theorem endsInSlash_join (p : Path) (hs : IsName s) : (p.join s).endsInSlash = false := by
  have hne : s.toList ≠ [] := List.ne_nil_of_length_pos (Nat.zero_lt_of_lt hs.long)
  have hlast : (p.join s).text.toList.getLast? = s.toList.getLast? := by
    rcases text_join (p := p) hs with htext | htext <;> rw [htext, String.toList_append] <;>
      exact List.getLast?_append_of_ne_nil _ hne
  rw [endsInSlash, hlast, decide_eq_false_iff_not]
  exact fun h => hs.slash (List.mem_of_getLast? h)

/-- A slash at the end is followed by an empty piece. -/
theorem exists_pieces_of_endsInSlash (h : p.endsInSlash) :
    ∃ cs, p.text.toList = cs ++ ['/'] ∧ p.pieces = split cs ++ [[]] := by
  have hlast : p.text.toList.getLast? = some '/' := by simpa [endsInSlash] using h
  obtain ⟨cs, hcs⟩ := List.getLast?_eq_some_iff.1 hlast
  refine ⟨cs, hcs, ?_⟩
  rw [pieces, hcs]
  exact split_append_slash cs []

/-- The pieces of a path that goes on by a name are those of the way and the name. -/
theorem exists_pieces_join (hp : p.text ≠ "") (hs : IsName s) : ∃ front,
    (p.join s).pieces = front ++ [s.toList] ∧ front.map Step.ofPiece = p.way ∧
      front <+: p.pieces := by
  have hname : split s.toList = [s.toList] := split_of_no_slash hs.slash
  unfold join way
  rw [isRooted_of_isName hs]
  by_cases hslash : p.endsInSlash
  · obtain ⟨cs, hcs, hpieces⟩ := exists_pieces_of_endsInSlash hslash
    refine ⟨split cs, ?_, ?_, ?_⟩
    · have hjoined : split (cs ++ '/' :: s.toList) = split cs ++ split s.toList :=
        split_append_slash cs s.toList
      simp [hslash, pieces, hcs, hjoined, hname]
    · simp [hp, hslash, steps, hpieces]
    · rw [hpieces]
      exact List.prefix_append _ _
  · refine ⟨p.pieces, ?_, ?_, List.prefix_refl _⟩
    · have hjoined : split (p.text.toList ++ '/' :: s.toList) = p.pieces ++ split s.toList :=
        split_append_slash p.text.toList s.toList
      simp [hp, hslash, pieces, hjoined, hname]
    · simp [hp, hslash, steps]

/-- A name alone has no parent. -/
theorem parent_join_of_text_eq {p : Path} (hp : p.text = "") {s : String} (hs : IsName s) :
    (p.join s).parent.text = "" := by
  have hjoin : p.join s = ⟨s⟩ := by
    rw [join, isRooted_of_isName hs, if_neg Bool.false_ne_true, if_pos (Or.inl hp), hp,
      String.empty_append]
  have hpieces : (⟨s⟩ : Path).pieces = [s.toList] := split_of_no_slash hs.slash
  have hidle : isIdle s.toList = false := by
    rw [isIdle, ofPiece_of_long hs.long]
    rfl
  have htrim : trimEnd ([] ++ [s.toList]) = [s.toList] := trimEnd_concat hidle
  rw [List.nil_append] at htrim
  have hnone : trimEnd ([s.toList] : List (List Char)).dropLast = [] := rfl
  rw [hjoin, parent, hpieces, htrim, hnone]
  simp only
  rw [isRooted_of_isName hs, if_neg Bool.false_ne_true]

/-- The parent of a path that goes on by a name spells a part of the way, and leaves out only steps
that lead nowhere. -/
theorem exists_parent_join (hp : p.text ≠ "") (hs : IsName s) :
    (p.join s).parent.text = "/" ∨ (p.join s).parent.text = "" ∨
      (p.join s).parent.text.toList <+: p.text.toList ∧
        ∃ idle, p.way = (p.join s).parent.steps ++ idle ∧ ∀ step ∈ idle, step = .stay := by
  obtain ⟨front, hpieces, hway, hbegins⟩ := exists_pieces_join hp hs
  have hidle : isIdle s.toList = false := by
    rw [isIdle, ofPiece_of_long hs.long]
    rfl
  rw [parent, hpieces, trimEnd_concat hidle, List.dropLast_concat]
  obtain ⟨idle, hfront, hstay⟩ := exists_trimEnd front
  cases hkept : trimEnd front with
  | nil =>
    simp only
    split_ifs
    · exact Or.inl rfl
    · exact Or.inr (Or.inl rfl)
  | cons piece kept =>
    rw [hkept] at hfront
    have hkeptBegins : piece :: kept <+: p.pieces :=
      (hfront ▸ List.prefix_append (piece :: kept) idle : piece :: kept <+: front).trans hbegins
    have hslash : ∀ q ∈ piece :: kept, '/' ∉ q :=
      fun q hq => slash_notMem_split (hkeptBegins.subset hq)
    refine Or.inr (Or.inr ⟨?_, idle.map Step.ofPiece, ?_, ?_⟩)
    · show (ofPieces (piece :: kept)).text.toList <+: _
      rw [ofPieces, String.toList_ofList, ← intercalate_split p.text.toList]
      exact intercalate_isPrefix_intercalate (List.cons_ne_nil _ _) hkeptBegins
    · show p.way = (ofPieces (piece :: kept)).steps ++ _
      rw [← hway, hfront, List.map_append, steps, pieces, ofPieces, String.toList_ofList,
        split_intercalate hslash (List.cons_ne_nil _ _)]
    · intro step hstep
      obtain ⟨q, hq, rfl⟩ := List.mem_map.1 hstep
      exact hstay q hq

end Collate.Path
