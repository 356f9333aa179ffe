import Collate.Proofs.Storage.Directory

/-!
# What actions do to files

An action on the path of a file fails and changes nothing, or does one thing to the file: the file
is erased, written, moved or locked (`Volume.erased` and its like).  `Volume.remove_eq`,
`Volume.write_eq`, `Volume.rename_eq` and `Volume.tryLock_eq` tell which.
-/

namespace Collate

namespace Volume

variable {v v' : Volume} {l m old new : Location} {p : Path} {bytes : List UInt8}

/-- The volume without a file. -/
def erased (v : Volume) (l : Location) : Volume :=
  { v with nodes := v.nodes.erase l, locks := v.locks.filter (·.2 ≠ l) }

/-- The volume with bytes in a file. -/
def written (v : Volume) (l : Location) (bytes : List UInt8) : Volume :=
  { v with nodes := v.nodes.insert l (.file bytes) }

/-- The volume with a file that is empty where there was none. -/
def created (v : Volume) (l : Location) : Volume :=
  if v.node? l = none then v.written l [] else v

/-- The volume with a file at another location. -/
def moved (v : Volume) (old new : Location) (bytes : List UInt8) : Volume :=
  { v with
    nodes := (v.nodes.erase old).insert new (.file bytes)
    locks := (v.locks.filter (·.2 ≠ new)).map fun (token, l) =>
      (token, if l = old then new else l) }

/-- The volume with one more lock, under a fresh token. -/
def held (v : Volume) (l : Location) : Volume :=
  { v with fresh := v.fresh + 1, locks := (v.fresh, l) :: v.locks }

/-- The volume after a number was taken. -/
def numbered (v : Volume) : Volume := { v with fresh := v.fresh + 1 }

theorem node?_of_nodes_insert {node : Node} (hl : l ≠ #[]) (h : v'.nodes = v.nodes.insert l node) :
    v'.node? m = if m = l then some node else v.node? m := by
  rw [node?, node?, h, Table.get?_insert]
  by_cases hm : m = #[]
  · rw [if_pos hm, if_pos hm, if_neg (fun heq : m = l => hl (heq ▸ hm))]
  · rw [if_neg hm, if_neg hm]

theorem node?_of_nodes_erase (hl : l ≠ #[]) (h : v'.nodes = v.nodes.erase l) :
    v'.node? m = if m = l then none else v.node? m := by
  rw [node?, node?, h, Table.get?_erase]
  by_cases hm : m = #[]
  · rw [if_pos hm, if_pos hm, if_neg (fun heq : m = l => hl (heq ▸ hm))]
  · rw [if_neg hm, if_neg hm]

theorem ne_top_of_not_directory (hl : v.node? l ≠ some .directory) : l ≠ #[] := by
  rintro rfl
  exact hl rfl

theorem node?_erased (hl : v.node? l ≠ some .directory) (m : Location) :
    (v.erased l).node? m = if m = l then none else v.node? m :=
  node?_of_nodes_erase (ne_top_of_not_directory hl) rfl

theorem node?_written (hl : v.node? l ≠ some .directory) (m : Location) :
    (v.written l bytes).node? m = if m = l then some (.file bytes) else v.node? m :=
  node?_of_nodes_insert (ne_top_of_not_directory hl) rfl

theorem locks_created (v : Volume) (l : Location) : (v.created l).locks = v.locks := by
  rw [created]
  split_ifs <;> rfl

theorem fresh_created (v : Volume) (l : Location) : (v.created l).fresh = v.fresh := by
  rw [created]
  split_ifs <;> rfl

theorem node?_moved (hold : v.node? old ≠ some .directory) (hnew : v.node? new ≠ some .directory)
    (m : Location) : (v.moved old new bytes).node? m =
      if m = new then some (.file bytes) else if m = old then none else v.node? m := by
  have herased := node?_erased hold m
  rw [node?_of_nodes_insert (v := v.erased old) (ne_top_of_not_directory hnew) rfl, herased]

/-! ### What actions do -/

theorem remove_eq (p : Path) (v : Volume) : remove p v =
    match v.locate p with
    | .error e => (.error e, v)
    | .ok l =>
      match v.node? l with
      | none => (.error .notFound, v)
      | some .directory => (.error .isADirectory, v)
      | some (.file _) => (.ok (), v.erased l) := by
  cases hlocate : v.locate p with
  | error e => rw [remove, bind_apply_error (ask_apply_error hlocate)]
  | ok l =>
    rw [remove, bind_apply (ask_apply hlocate), bind_apply get_apply]
    dsimp only
    cases v.node? l with
    | none => rfl
    | some node => cases node <;> rfl

theorem write_eq (hslash : p.endsInSlash = false) (bytes : List UInt8) (v : Volume) :
    write p bytes v =
      match v.locate p with
      | .error e => (.error e, v)
      | .ok l => if v.node? l = some .directory then (.error .isADirectory, v)
        else (.ok (), v.written l bytes) := by
  rw [write, hslash, if_neg Bool.false_ne_true]
  cases hlocate : v.locate p with
  | error e => rw [bind_apply_error (ask_apply_error hlocate)]
  | ok l =>
    rw [bind_apply (ask_apply hlocate), bind_apply get_apply]
    dsimp only
    cases v.node? l with
    | none => rfl
    | some node => cases node <;> rfl

theorem rename_eq (hread : v.read p = .ok bytes) (hold : v.locate p = .ok old) (q : Path) :
    rename p q v =
      match v.locate q with
      | .error e => (.error e, v)
      | .ok new => if v.node? new = some .directory then (.error .isADirectory, v)
        else (.ok (), v.moved old new bytes) := by
  rw [rename, bind_apply (ask_apply hread), bind_apply (ask_apply hold)]
  cases hlocate : v.locate q with
  | error e => rw [bind_apply_error (ask_apply_error hlocate)]
  | ok new =>
    rw [bind_apply (ask_apply hlocate), bind_apply get_apply]
    dsimp only
    cases v.node? new with
    | none => rfl
    | some node => cases node <;> rfl

theorem tryLock_eq (p : Path) (v : Volume) : tryLock p v =
    match v.locate p with
    | .error e => (.error e, v)
    | .ok l =>
      if v.node? l = some .directory then (.error .isADirectory, v)
      else if v.isLocked l then (.ok none, v.created l)
      else (.ok (some v.fresh), (v.created l).held l) := by
  cases hlocate : v.locate p with
  | error e => rw [tryLock, bind_apply_error (ask_apply_error hlocate)]
  | ok l =>
    rw [tryLock, bind_apply (ask_apply hlocate), bind_apply get_apply]
    have htaken : ∀ there : Volume, there.locks = v.locks → there.fresh = v.fresh →
        (do
          if (← (get : Action IoError Volume)).isLocked l then return none
          else
            let token ← takeFresh
            modify fun v => { v with locks := (token, l) :: v.locks }
            return some token : Action IoError (Option Nat)) there =
          if v.isLocked l then (.ok none, there) else (.ok (some v.fresh), there.held l) := by
      intro there hlocks hfresh
      have hlocked : there.isLocked l = v.isLocked l := by rw [isLocked, isLocked, hlocks]
      rw [bind_apply get_apply, hlocked, ← hfresh]
      cases v.isLocked l <;> rfl
    cases hnode : v.node? l with
    | none =>
      have hcreated : v.created l = v.written l [] := if_pos hnode
      simp only [hnode, hcreated]
      exact htaken (v.written l []) rfl rfl
    | some node =>
      have hcreated : v.created l = v := if_neg (by simp [hnode])
      simp only [hnode, hcreated]
      cases node with
      | directory => rfl
      | file bytes => exact htaken v rfl rfl

end Volume

end Collate
