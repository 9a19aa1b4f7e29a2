import TibServer.TileOps

/-!
The flags a tile keeps of its items (`tile.cpp`): what `setTileFlags` and
`resetTileFlags` do to each flag, and the runs of operations in which a flag says
whether some item provides it.
-/

namespace TibServer

/-! ### The flags -/

/-- The values `Items::parseItemNode` gives `floorChange`. -/
inductive FloorChange
  | down | north | south | east | west | southAlt | eastAlt
  deriving DecidableEq, Repr

/-- The flags that come from what lies on a tile. -/
inductive TileFlag
  | floorChange (d : FloorChange)
  | teleport | magicField | mailbox | trashHolder | bed | depot
  | blockSolid | blockPath | immovableBlockSolid | immovableBlockPath
  | immovableNoFieldBlockPath | noFieldBlockPath | supportsHangable
  deriving DecidableEq, Repr

namespace FloorChange

def mask : FloorChange → BitVec 32
  | down => World.TILESTATE_FLOORCHANGE_DOWN
  | north => World.TILESTATE_FLOORCHANGE_NORTH
  | south => World.TILESTATE_FLOORCHANGE_SOUTH
  | east => World.TILESTATE_FLOORCHANGE_EAST
  | west => World.TILESTATE_FLOORCHANGE_WEST
  | southAlt => World.TILESTATE_FLOORCHANGE_SOUTH_ALT
  | eastAlt => World.TILESTATE_FLOORCHANGE_EAST_ALT

end FloorChange

namespace TileFlag

def mask : TileFlag → BitVec 32
  | floorChange d => d.mask
  | teleport => World.TILESTATE_TELEPORT
  | magicField => World.TILESTATE_MAGICFIELD
  | mailbox => World.TILESTATE_MAILBOX
  | trashHolder => World.TILESTATE_TRASHHOLDER
  | bed => World.TILESTATE_BED
  | depot => World.TILESTATE_DEPOT
  | blockSolid => World.TILESTATE_BLOCKSOLID
  | blockPath => World.TILESTATE_BLOCKPATH
  | immovableBlockSolid => World.TILESTATE_IMMOVABLEBLOCKSOLID
  | immovableBlockPath => World.TILESTATE_IMMOVABLEBLOCKPATH
  | immovableNoFieldBlockPath => World.TILESTATE_IMMOVABLENOFIELDBLOCKPATH
  | noFieldBlockPath => World.TILESTATE_NOFIELDBLOCKPATH
  | supportsHangable => World.TILESTATE_SUPPORTS_HANGABLE

/-- The number of the flag's one bit. -/
def index : TileFlag → Nat
  | floorChange .down => 0
  | floorChange .north => 1
  | floorChange .south => 2
  | floorChange .east => 3
  | floorChange .west => 4
  | floorChange .southAlt => 5
  | floorChange .eastAlt => 6
  | teleport => 11
  | magicField => 12
  | mailbox => 13
  | trashHolder => 14
  | bed => 15
  | depot => 16
  | blockSolid => 17
  | blockPath => 18
  | immovableBlockSolid => 19
  | immovableBlockPath => 20
  | immovableNoFieldBlockPath => 21
  | noFieldBlockPath => 22
  | supportsHangable => 23

/-- The flags that `resetTileFlags` keeps while another item has the property. -/
def guarded : TileFlag → Bool
  | blockSolid | blockPath | immovableBlockSolid | immovableBlockPath
  | immovableNoFieldBlockPath | noFieldBlockPath => true
  | _ => false

theorem mask_eq (f : TileFlag) : f.mask = BitVec.twoPow 32 f.index := by
  cases f with
  | floorChange d => cases d <;> decide
  | _ => decide

/-- The constants of the source, by the flags they mask. -/
theorem masks :
    World.TILESTATE_TELEPORT = teleport.mask ∧ World.TILESTATE_MAGICFIELD = magicField.mask ∧
      World.TILESTATE_MAILBOX = mailbox.mask ∧ World.TILESTATE_TRASHHOLDER = trashHolder.mask ∧
      World.TILESTATE_BED = bed.mask ∧ World.TILESTATE_DEPOT = depot.mask ∧
      World.TILESTATE_BLOCKSOLID = blockSolid.mask ∧ World.TILESTATE_BLOCKPATH = blockPath.mask ∧
      World.TILESTATE_IMMOVABLEBLOCKSOLID = immovableBlockSolid.mask ∧
      World.TILESTATE_IMMOVABLEBLOCKPATH = immovableBlockPath.mask ∧
      World.TILESTATE_IMMOVABLENOFIELDBLOCKPATH = immovableNoFieldBlockPath.mask ∧
      World.TILESTATE_NOFIELDBLOCKPATH = noFieldBlockPath.mask ∧
      World.TILESTATE_SUPPORTS_HANGABLE = supportsHangable.mask :=
  ⟨rfl, rfl, rfl, rfl, rfl, rfl, rfl, rfl, rfl, rfl, rfl, rfl, rfl⟩

theorem index_lt (f : TileFlag) : f.index < 32 := by
  cases f with
  | floorChange d => cases d <;> decide
  | _ => decide

theorem index_inj {f g : TileFlag} (h : f.index = g.index) : f = g := by
  cases f with
  | floorChange d =>
      cases g with
      | floorChange e => cases d <;> cases e <;> first | rfl | exact absurd h (by decide)
      | _ => cases d <;> exact absurd h (by decide)
  | _ =>
      cases g with
      | floorChange e => cases e <;> exact absurd h (by decide)
      | _ => first | rfl | exact absurd h (by decide)

theorem getLsbD_mask (f g : TileFlag) : f.mask.getLsbD g.index = decide (f = g) := by
  rw [mask_eq, BitVec.getLsbD_twoPow]
  by_cases h : f = g
  · simp [h, g.index_lt]
  · have apart : f.index ≠ g.index := fun e => h (index_inj e)
    simp [h, apart]

end TileFlag

theorem Tile.hasFlag_mask (t : Tile) (f : TileFlag) :
    t.hasFlag f.mask = t.flags.getLsbD f.index := by
  rw [Tile.hasFlag, f.mask_eq, BitVec.and_twoPow]
  cases t.flags.getLsbD f.index with
  | false => simp
  | true =>
      have nonzero : BitVec.twoPow 32 f.index ≠ 0 := by
        rw [← f.mask_eq]
        cases f with
        | floorChange d => cases d <;> decide
        | _ => decide
      simpa using nonzero

/-- The item table as the parser leaves it: a type changes the floor in at most one way. -/
def Items.FloorChanges (items : Items) : Prop :=
  ∀ id, (items.type id).floorChange = 0 ∨ ∃ d : FloorChange, (items.type id).floorChange = d.mask

/-! ### What an item provides -/

namespace Face

/-- `Item::hasProperty`, of a face. -/
def hasProperty (x : Face) (prop : World.ItemProperty) : Bool :=
  let immovable := !x.type.moveable || x.unique
  match prop with
  | .blockSolid => x.type.blockSolid
  | .moveable => x.type.moveable && !x.unique
  | .blockPath => x.type.blockPathFind
  | .immovableBlockSolid => x.type.blockSolid && immovable
  | .immovableBlockPath => x.type.blockPathFind && immovable
  | .immovableNoFieldBlockPath => !x.type.isMagicField && x.type.blockPathFind && immovable
  | .noFieldBlockPath => !x.type.isMagicField && x.type.blockPathFind
  | .supportHangable => x.type.isHorizontal || x.type.isVertical
  | .isVertical => x.type.isVertical

/-- What an item of this face is to a flag. -/
def provides (x : Face) : TileFlag → Bool
  | .floorChange d => x.type.floorChange == d.mask
  | .teleport => x.cls == .teleport
  | .magicField => x.cls == .magicField
  | .mailbox => x.cls == .mailbox
  | .trashHolder => x.cls == .trashHolder
  | .bed => match x.cls with
      | .bed _ => true
      | _ => false
  | .depot => match x.cls with
      | .container c => c.kind == .depotLocker
      | _ => false
  | .blockSolid => x.hasProperty .blockSolid
  | .blockPath => x.hasProperty .blockPath
  | .immovableBlockSolid => x.hasProperty .immovableBlockSolid
  | .immovableBlockPath => x.hasProperty .immovableBlockPath
  | .immovableNoFieldBlockPath => x.hasProperty .immovableNoFieldBlockPath
  | .noFieldBlockPath => x.hasProperty .noFieldBlockPath
  | .supportsHangable => x.hasProperty .supportHangable

end Face

namespace World

variable {w : World} {t : Tile} {i : ItemRef}

theorem hasProperty_eq (w : World) (i : ItemRef) (prop : ItemProperty) :
    w.hasProperty i prop = (w.face i).hasProperty prop := by
  cases prop <;> rfl

theorem getBed_eq (w : World) (i : ItemRef) :
    (w.item i).getBed = (w.face i).provides .bed := by
  simp only [Item.getBed, Face.provides, face]
  cases (w.item i).cls <;> rfl

theorem depot_eq (w : World) (i : ItemRef) :
    (w.kindOf i == some .depotLocker) = (w.face i).provides .depot := by
  simp only [kindOf, getContainer, Item.getContainer, Face.provides, face]
  cases (w.item i).cls <;> rfl

theorem class_eq (w : World) (i : ItemRef) :
    ((w.item i).cls == .teleport) = (w.face i).provides .teleport ∧
      ((w.item i).cls == .magicField) = (w.face i).provides .magicField ∧
      ((w.item i).cls == .mailbox) = (w.face i).provides .mailbox ∧
      ((w.item i).cls == .trashHolder) = (w.face i).provides .trashHolder := by
  obtain ⟨a, b, c, d⟩ := shell_beq (w.item i).cls
  exact ⟨a.symm, b.symm, c.symm, d.symm⟩

/-! ### Setting and resetting -/

/-- An item that is put on a tile sets a flag. -/
def sets (w : World) (t : Tile) (i : ItemRef) : TileFlag → Bool
  | .floorChange d => !t.hasFlag TILESTATE_FLOORCHANGE && (w.face i).provides (.floorChange d)
  | .immovableBlockPath => false
  | f => (w.face i).provides f

theorem getLsbD_set (c : Bool) (x m : BitVec 32) (n : Nat) :
    (if c then x ||| m else x).getLsbD n = (x.getLsbD n || (c && m.getLsbD n)) := by
  cases c <;> simp

theorem getLsbD_reset (c : Bool) (x m : BitVec 32) {n : Nat} (h : n < 32) :
    (if c then x &&& ~~~m else x).getLsbD n = (x.getLsbD n && !(c && m.getLsbD n)) := by
  cases c <;> simp [h]

theorem floorChange_getLsbD (parsed : w.items.FloorChanges) (i : ItemRef) (f : TileFlag) :
    ((w.typeOf i).floorChange).getLsbD f.index =
      match f with
      | .floorChange d => (w.face i).provides (.floorChange d)
      | _ => false := by
  have zero (d : FloorChange) : ¬ 0#32 = d.mask := by cases d <;> decide
  have inj (d e : FloorChange) : (d.mask == e.mask) = decide (d = e) := by
    cases d <;> cases e <;> rfl
  have value : (w.face i).type.floorChange = (w.typeOf i).floorChange := rfl
  rcases parsed (w.item i).id with none_ | ⟨d, some_⟩
  · have none_ : (w.typeOf i).floorChange = 0 := none_
    cases f <;> simp [none_, Face.provides, value, zero]
  · have some_ : (w.typeOf i).floorChange = (TileFlag.floorChange d).mask := some_
    rw [some_, TileFlag.getLsbD_mask]
    cases f with
    | floorChange e => simp [Face.provides, value, some_, TileFlag.mask, inj]
    | _ => simp

theorem floorChange_ne_zero {d : FloorChange}
    (h : (w.face i).provides (.floorChange d) = true) : (w.typeOf i).floorChange ≠ 0 := by
  have value : (w.typeOf i).floorChange = d.mask := eq_of_beq h
  rw [value]
  cases d <;> decide

theorem setTileFlags_hasFlag (parsed : w.items.FloorChanges) (t : Tile) (i : ItemRef)
    (f : TileFlag) :
    (w.setTileFlags t i).hasFlag f.mask = (t.hasFlag f.mask || w.sets t i f) := by
  obtain ⟨a, b, c, d⟩ := w.class_eq i
  rw [Tile.hasFlag_mask, Tile.hasFlag_mask]
  simp only [setTileFlags, getLsbD_set, a, b, c, d, getBed_eq, depot_eq, hasProperty_eq,
    floorChange_getLsbD parsed,
    TileFlag.masks, TileFlag.getLsbD_mask]
  cases f with
  | floorChange d =>
      cases changes : (w.face i).provides (.floorChange d) with
      | false => simp [sets, changes]
      | true =>
          have nonzero : ((w.typeOf i).floorChange != 0#32) = true :=
            bne_iff_ne.mpr (floorChange_ne_zero changes)
          simp [sets, changes, nonzero]
  | _ => simp [sets] <;> rfl

/-- Another item of the tile provides a flag. -/
def otherProvides (w : World) (t : Tile) (o : ItemRef) (f : TileFlag) : Bool :=
  t.things.any fun x => x != o && (w.face x).provides f

/-- An item that leaves a tile resets a flag. -/
def resets (w : World) (t : Tile) (o : ItemRef) : TileFlag → Bool
  | .floorChange _ => (w.typeOf o).floorChange != 0
  | f => (w.face o).provides f && !(f.guarded && w.otherProvides t o f)

theorem tileHasProperty_eq (w : World) (t : Tile) (o : ItemRef) (prop : ItemProperty) :
    w.tileHasProperty t o prop = t.things.any fun x => x != o && (w.face x).hasProperty prop := by
  simp only [tileHasProperty, hasProperty_eq]
  rfl

theorem getLsbD_floorChange (f : TileFlag) :
    TILESTATE_FLOORCHANGE.getLsbD f.index = match f with
      | .floorChange _ => true
      | _ => false := by
  cases f with
  | floorChange d => cases d <;> rfl
  | _ => rfl

theorem resetTileFlags_hasFlag (w : World) (t : Tile) (o : ItemRef) (f : TileFlag) :
    (w.resetTileFlags t o).hasFlag f.mask = (t.hasFlag f.mask && !w.resets t o f) := by
  obtain ⟨a, b, c, d⟩ := w.class_eq o
  have lt := f.index_lt
  rw [Tile.hasFlag_mask, Tile.hasFlag_mask]
  simp only [resetTileFlags, getLsbD_reset _ _ _ lt, a, b, c, d, getBed_eq, depot_eq,
    hasProperty_eq, tileHasProperty_eq, getLsbD_floorChange,
    TileFlag.masks, TileFlag.getLsbD_mask]
  cases f <;> simp [resets, TileFlag.guarded] <;> rfl

end World

/-! ### Keeping a flag right -/

/-- The flag says whether an item of the tile provides it. -/
def Tile.Coherent (w : World) (t : Tile) (f : TileFlag) : Prop :=
  t.hasFlag f.mask = true ↔ ∃ i ∈ t.things, (w.face i).provides f = true

/-- An item that leaves resets the flag without a look at the others: any change of
floor resets the changes of floor, and what a flag is not guarded against itself. -/
def World.forgets (w : World) (o : ItemRef) : TileFlag → Bool
  | .floorChange _ => (w.typeOf o).floorChange != 0
  | f => (w.face o).provides f && !f.guarded

/-- An item that provides the flag and comes to the tile, while another leaves, sets
it: a change of floor only where no other is set, and `IMMOVABLEBLOCKPATH` never. -/
def TileFlag.Settable (w : World) (t : Tile) (leaving : Option ItemRef) : TileFlag → Prop
  | .floorChange d =>
      t.hasFlag World.TILESTATE_FLOORCHANGE = true →
        t.hasFlag d.mask = true ∨ ∃ o, leaving = some o ∧ (w.typeOf o).floorChange ≠ 0
  | .immovableBlockPath => False
  | _ => True

/-- An operation that keeps a flag right: what resets the flag while another item
provides it is followed by what sets it, and what provides it can set it. -/
structure Spares (f : TileFlag) (w : World) (t : Tile) (op : TileOp) : Prop where
  leaving : ∀ o, op.leaving w t = some o → w.forgets o f = true → w.otherProvides t o f = true →
    ∃ i it, op.coming w t = some (i, it) ∧ (w.faceAs i it).provides f = true
  coming : ∀ i it, op.coming w t = some (i, it) → (w.faceAs i it).provides f = true →
    f.Settable w t (op.leaving w t)

/-- A cached bit, reset for what left and set for what came, while the rest stays. -/
theorem cached_turn {b left came rest forgets guarded others sets : Bool}
    (before : b = (left || rest)) (reset : left = true → forgets = true ∨ guarded = true)
    (stays : rest = true → others = true) (seen : others = true → rest = true ∨ came = true)
    (spared : forgets = true → rest = true → came = true) (set : sets = true → came = true)
    (kept : came = true →
      (b && !(forgets || (left && guarded && !others))) = true ∨ sets = true) :
    ((b && !(forgets || (left && guarded && !others))) || sets) = (came || rest) := by
  cases came with
  | true =>
      rw [Bool.true_or, Bool.or_eq_true]
      exact kept rfl
  | false =>
      have unset : sets = false := Bool.eq_false_iff.mpr fun e => Bool.false_ne_true (set e)
      rw [unset, before, Bool.or_false, Bool.false_or]
      cases rest with
      | true =>
          have unforgotten : forgets = false :=
            Bool.eq_false_iff.mpr fun e => Bool.false_ne_true (spared e rfl)
          simp [unforgotten, stays rfl]
      | false =>
          have alone : others = false :=
            Bool.eq_false_iff.mpr fun e => (seen e).elim Bool.false_ne_true Bool.false_ne_true
          cases left with
          | false => rfl
          | true => rcases reset rfl with e | e <;> simp [e, alone]

theorem Tile.hasFlag_floorChange (t : Tile) :
    t.hasFlag World.TILESTATE_FLOORCHANGE = true ↔ ∃ d : FloorChange, t.hasFlag d.mask = true := by
  have bit (d : FloorChange) : t.hasFlag d.mask = t.flags.getLsbD (TileFlag.floorChange d).index :=
    t.hasFlag_mask (.floorChange d)
  rw [← not_iff_not, not_exists, Tile.hasFlag, Bool.not_eq_true, bne_eq_false_iff_eq]
  simp only [bit, Bool.not_eq_true]
  constructor
  · intro zero d
    have here := congrArg (fun x : BitVec 32 => x.getLsbD (TileFlag.floorChange d).index) zero
    simpa [BitVec.getLsbD_and, World.getLsbD_floorChange] using here
  · intro none_
    refine BitVec.eq_of_getLsbD_eq fun i lt => ?_
    rw [BitVec.getLsbD_and]
    rcases Nat.lt_or_ge i 7 with low | high
    · have clear : t.flags.getLsbD i = false := by
        interval_cases i
        · exact none_ .down
        · exact none_ .north
        · exact none_ .south
        · exact none_ .east
        · exact none_ .west
        · exact none_ .southAlt
        · exact none_ .eastAlt
      simp [clear]
    · have out : World.TILESTATE_FLOORCHANGE.getLsbD i = false := by
        interval_cases i <;> rfl
      simp [out]

namespace World

variable {w w' : World} {t t' u v : Tile} {i o : ItemRef} {f : TileFlag} {rest : List ItemRef}

theorem coherent_iff {l : List ItemRef} (perm : t.things.Perm (l ++ rest)) :
    t.Coherent w f ↔ t.hasFlag f.mask =
      ((l.any fun x => (w.face x).provides f) || rest.any fun x => (w.face x).provides f) := by
  have provided : ((l ++ rest).any fun x => (w.face x).provides f) = true ↔
      ∃ x ∈ t.things, (w.face x).provides f = true := by
    rw [List.any_eq_true]
    exact exists_congr fun x => by rw [perm.mem_iff]
  rw [Tile.Coherent, ← List.any_append, ← provided]
  exact Bool.eq_iff_iff.symm

theorem resets_eq (w : World) (t : Tile) (o : ItemRef) (f : TileFlag) :
    w.resets t o f = (w.forgets o f ||
      ((w.face o).provides f && f.guarded && !w.otherProvides t o f)) := by
  cases f with
  | floorChange d => simp [resets, forgets, TileFlag.guarded]
  | _ => simp [resets, forgets, TileFlag.guarded]

theorem forgets_or_guarded (h : (w.face o).provides f = true) :
    w.forgets o f = true ∨ f.guarded = true := by
  cases f with
  | floorChange d => exact .inl (bne_iff_ne.mpr (floorChange_ne_zero h))
  | _ => simp [forgets, TileFlag.guarded, h]

theorem provides_of_sets (h : w.sets t i f = true) : (w.face i).provides f = true := by
  cases f with
  | floorChange d => exact (Bool.and_eq_true_iff.mp h).2
  | immovableBlockPath => exact absurd h Bool.false_ne_true
  | _ => exact h

/-- What comes and provides a flag sets it, or finds it set. -/
theorem sets_of_settable {leaving : Option ItemRef}
    (floors : ∀ d : FloorChange, v.hasFlag d.mask =
      (t.hasFlag d.mask && !leaving.any fun o => (w.typeOf o).floorChange != 0))
    (settable : f.Settable w t leaving) (provides : (w'.face i).provides f = true) :
    (∃ d, f = .floorChange d ∧ t.hasFlag f.mask = true ∧
      (leaving.any fun o => w.forgets o f) = false) ∨ w'.sets v i f = true := by
  cases f with
  | floorChange d =>
      by_cases change : v.hasFlag TILESTATE_FLOORCHANGE = true
      · obtain ⟨e, set⟩ := v.hasFlag_floorChange.mp change
        rw [floors e, Bool.and_eq_true] at set
        obtain ⟨set, stays⟩ := set
        rw [Bool.not_eq_true'] at stays
        refine .inl ⟨d, rfl, ?_, stays⟩
        rcases settable (t.hasFlag_floorChange.mpr ⟨e, set⟩) with here | ⟨o, rfl, changes⟩
        · exact here
        · rw [Option.any_some, bne_eq_false_iff_eq] at stays
          exact absurd stays changes
      · rw [Bool.not_eq_true] at change
        exact .inr (by simp [sets, change, provides])
  | immovableBlockPath => exact settable.elim
  | _ => exact .inr provides

/-- What is on a tile besides an item, when the item lies only there. -/
theorem otherProvides_iff {l : List ItemRef} (perm : u.things.Perm (l ++ rest)) (off : o ∉ rest)
    (own : ∀ x ∈ l, x ≠ o → (w.face x).provides f = true → b = true) :
    ((rest.any fun x => (w.face x).provides f) = true → w.otherProvides u o f = true) ∧
      (w.otherProvides u o f = true →
        (rest.any fun x => (w.face x).provides f) = true ∨ b = true) := by
  simp only [otherProvides, List.any_eq_true, Bool.and_eq_true, bne_iff_ne]
  constructor
  · rintro ⟨x, mem, provides⟩
    refine ⟨x, perm.mem_iff.mpr (List.mem_append_right _ mem), fun e => off (e ▸ mem), provides⟩
  · rintro ⟨x, mem, other, provides⟩
    rcases List.mem_append.mp (perm.mem_iff.mp mem) with mem | mem
    · exact .inr (own x mem other provides)
    · exact .inl ⟨x, mem, provides⟩

section Turns

variable {inPlace : Prop} {leaving : Option ItemRef} {coming : Option (ItemRef × ItemType)}

/-- What comes to the tile provides the flag. -/
def came (w : World) (coming : Option (ItemRef × ItemType)) (f : TileFlag) : Bool :=
  coming.any fun ii => (w.faceAs ii.1 ii.2).provides f

/-- The flag after a turn, from what resets it and what sets it. -/
theorem flag_turn {others sets : Bool} (before : t.things.Perm (leaving.toList ++ rest))
    (left : ∀ o ∈ leaving, o ∉ rest)
    (spared : ∀ o, leaving = some o → w.forgets o f = true → w.otherProvides t o f = true →
      w.came coming f = true) (h : t.Coherent w f)
    (value : t'.hasFlag f.mask = ((t.hasFlag f.mask && !(leaving.any (w.forgets · f) ||
      (leaving.any (fun o => (w.face o).provides f) && f.guarded && !others))) || sets))
    (stays : (rest.any fun x => (w.face x).provides f) = true → others = true)
    (seen : others = true → (rest.any fun x => (w.face x).provides f) = true ∨
      w.came coming f = true)
    (set : sets = true → w.came coming f = true)
    (kept : w.came coming f = true → (∃ d, f = .floorChange d ∧ t.hasFlag f.mask = true ∧
      (leaving.any (w.forgets · f)) = false) ∨ sets = true) :
    t'.hasFlag f.mask = (w.came coming f || rest.any fun x => (w.face x).provides f) := by
  rw [value]
  rw [coherent_iff before] at h
  have toList : (leaving.toList.any fun x => (w.face x).provides f) =
      leaving.any fun o => (w.face o).provides f := by
    cases leaving <;> simp
  refine cached_turn (toList ▸ h) (fun provides => ?_) stays seen (fun forgets some_ => ?_) set
    fun provides => (kept provides).imp_left ?_
  · cases leaving with
    | none => exact absurd provides Bool.false_ne_true
    | some o => exact forgets_or_guarded provides
  · cases leaving with
    | none => exact absurd forgets Bool.false_ne_true
    | some o =>
        refine spared o rfl forgets ?_
        exact (otherProvides_iff (b := false) before (left o rfl) (by simp)).1 some_
  · rintro ⟨d, rfl, here, stays⟩
    simp [here, stays, TileFlag.guarded]

/-- What is left of a flag when an item has gone. -/
theorem reset_value (w : World) (o : ItemRef) (f : TileFlag) (flags : u.flags = t.flags) :
    (w.resetTileFlags u o).hasFlag f.mask = (t.hasFlag f.mask &&
      !((some o).any (w.forgets · f) || ((some o).any (fun o => (w.face o).provides f) &&
        f.guarded && !w.otherProvides u o f))) := by
  rw [resetTileFlags_hasFlag, resets_eq, Tile.hasFlag, flags]
  rfl

theorem reset_floors (w : World) (o : ItemRef) (flags : u.flags = t.flags) (d : FloorChange) :
    (w.resetTileFlags u o).hasFlag d.mask =
      (t.hasFlag d.mask && !(some o).any fun o => (w.typeOf o).floorChange != 0) := by
  have value := w.reset_value o (.floorChange d) flags
  simp only [TileFlag.guarded, Bool.and_false, Bool.false_and, Bool.or_false] at value
  exact value

/-- What comes to the tile, and what it sets. -/
theorem arrival {it : ItemType} (face : w'.face i = w.faceAs i it)
    (settable : w.came (some (i, it)) f = true → f.Settable w t leaving)
    (floors : ∀ d : FloorChange, v.hasFlag d.mask =
      (t.hasFlag d.mask && !leaving.any fun o => (w.typeOf o).floorChange != 0)) :
    (w'.sets v i f = true → w.came (some (i, it)) f = true) ∧
      (w.came (some (i, it)) f = true → (∃ d, f = .floorChange d ∧ t.hasFlag f.mask = true ∧
        (leaving.any (w.forgets · f)) = false) ∨ w'.sets v i f = true) := by
  refine ⟨fun e => ?_, fun e => sets_of_settable floors (settable e) ?_⟩
  · have provides := provides_of_sets e
    rw [face] at provides
    exact provides
  · rw [face]
    exact e

/-- A flag that is right before a turn is right after it, if the turn spares it. -/
theorem turn_coherent (turn : Turn w t w' t' inPlace leaving coming)
    (parsed : w.items.FloorChanges) (before : t.things.Perm (leaving.toList ++ rest))
    (after : t'.things.Perm ((coming.map Prod.fst).toList ++ rest))
    (left : ∀ o ∈ leaving, o ∉ rest) (apart : ∀ i it, coming = some (i, it) → i ∉ rest)
    (spared : ∀ o, leaving = some o → w.forgets o f = true → w.otherProvides t o f = true →
      w.came coming f = true)
    (settable : w.came coming f = true → f.Settable w t leaving) (h : t.Coherent w f) :
    t'.Coherent w' f := by
  have same : (∀ i it, coming = some (i, it) → it = w.typeOf i) → ∀ x, w'.face x = w.face x :=
    turn_faces turn
  obtain ⟨turned, items, others, newcomer⟩ := turn
  have parsed' : w'.items.FloorChanges := items ▸ parsed
  have stays : (rest.any fun x => (w'.face x).provides f) =
      rest.any fun x => (w.face x).provides f := by
    rw [Bool.eq_iff_iff, List.any_eq_true, List.any_eq_true]
    refine exists_congr fun x => and_congr_right fun mem => ?_
    rw [others x fun it e => apart x it e mem]
  have arrived : ((coming.map Prod.fst).toList.any fun x => (w'.face x).provides f) =
      w.came coming f := by
    cases coming with
    | none => rfl
    | some ii => simp [came, newcomer ii.1 ii.2 rfl]
  rw [coherent_iff after, stays, arrived]
  cases turned with
  | kept =>
      rw [coherent_iff before] at h
      exact h
  | put placed =>
      rename_i i u
      have flags : u.flags = t.flags := by cases placed <;> rfl
      have value : (w'.setTileFlags u i).hasFlag f.mask =
          (t.hasFlag f.mask || w'.sets u i f) := by
        rw [setTileFlags_hasFlag parsed', Tile.hasFlag, flags]
        rfl
      obtain ⟨set, kept⟩ := arrival (v := u) (newcomer i _ rfl) settable fun d => by
        simp [Tile.hasFlag, flags]
      refine flag_turn before left spared h ?_ (fun e => e) .inl set kept
      simpa using value
  | take lifted =>
      rename_i o u
      have flags : u.flags = t.flags := by cases lifted <;> rfl
      have faces := same (by simp)
      rw [resetTileFlags_of_face (faces o) fun x _ => faces x]
      obtain ⟨stays, seen⟩ := otherProvides_iff (w := w) (f := f) (b := false) after (left o rfl)
        (by simp)
      refine flag_turn before left spared h ?_ stays seen (fun e => absurd e Bool.false_ne_true)
        fun e => absurd e Bool.false_ne_true
      rw [Bool.or_false]
      exact w.reset_value o f flags
  | swap place swapped =>
      rename_i o i u
      have flags : u.flags = t.flags := by cases swapped <;> rfl
      have faces := same (by rintro j it ⟨rfl, rfl⟩; rfl)
      have reset : w'.resetTileFlags u o = w.resetTileFlags u o :=
        resetTileFlags_of_face (faces o) fun x _ => faces x
      have value := setTileFlags_hasFlag parsed' (w'.resetTileFlags u o) i f
      rw [reset, w.reset_value o f flags] at value
      obtain ⟨set, kept⟩ := arrival (newcomer i _ rfl) settable (w.reset_floors o flags)
      obtain ⟨stays, seen⟩ := otherProvides_iff (w := w) (f := f)
        (b := w.came (some (i, w.typeOf i)) f) after (left o rfl) (by
          intro x mem ne provides
          obtain rfl := List.mem_singleton.mp mem
          exact provides)
      rw [reset]
      exact flag_turn before left spared h value stays seen set kept
  | exchange lifted placed =>
      rename_i o i u v
      have flags : u.flags = t.flags := by cases lifted <;> rfl
      have faces := same (by rintro j it ⟨rfl, rfl⟩; rfl)
      have reset : w'.resetTileFlags u o = w.resetTileFlags u o :=
        resetTileFlags_of_face (faces o) fun x _ => faces x
      have lay : u.things.Perm ([] ++ rest) :=
        (List.perm_cons o).mp (lifted.perm.symm.trans before)
      have hasFlag (m : BitVec 32) : v.hasFlag m = (w.resetTileFlags u o).hasFlag m := by
        rw [← reset]
        cases placed <;> rfl
      have value := setTileFlags_hasFlag parsed' v i f
      rw [hasFlag, w.reset_value o f flags] at value
      obtain ⟨set, kept⟩ := arrival (v := v) (newcomer i _ rfl) settable fun d =>
        (hasFlag d.mask).trans (w.reset_floors o flags d)
      obtain ⟨stays, seen⟩ := otherProvides_iff (w := w) (f := f)
        (b := w.came (some (i, w.typeOf i)) f) lay (left o rfl) (by simp)
      exact flag_turn before left spared h value stays seen set kept
  | update place mem =>
      rename_i i it
      have value := setTileFlags_hasFlag parsed' (w.resetTileFlags t i) i f
      rw [w.reset_value i f rfl] at value
      obtain ⟨set, kept⟩ := arrival (newcomer i it rfl) settable (w.reset_floors i rfl)
      obtain ⟨stays, seen⟩ := otherProvides_iff (w := w) (f := f) (b := w.came (some (i, it)) f)
        before (left i rfl) (by
          intro x mem ne
          exact absurd (List.mem_singleton.mp mem) ne)
      exact flag_turn before left spared h value stays seen set kept

end Turns

end World

/-! ### Runs -/

variable {pos : Position} {w w' : World} {t t' : Tile} {f : TileFlag}

theorem Tile.Coherent.step {op : TileOp} (h : t.Coherent w f) (parsed : w.items.FloorChanges)
    (nodup : t.things.Nodup) (fresh : op.Fresh t) (spares : Spares f w t op)
    (turn : Turn w t w' t' op.InPlace (op.leaving w t) (op.coming w t)) : t'.Coherent w' f := by
  obtain ⟨rest, before, after, -, left, apart⟩ := turn.turned.rest fresh nodup
  refine World.turn_coherent turn parsed before after left apart (fun o e forgets other => ?_)
    (fun provides => ?_) h
  · obtain ⟨i, it, e, provides⟩ := spares.leaving o e forgets other
    rw [World.came, e]
    exact provides
  · cases e : op.coming w t with
    | none =>
        rw [World.came, e] at provides
        exact absurd provides Bool.false_ne_true
    | some ii =>
        rw [World.came, e] at provides
        exact spares.coming ii.1 ii.2 e provides

theorem Tile.hasFlag_content {flags : BitVec 32} (f : TileFlag)
    (e : t.flags &&& TILESTATE_CONTENT = flags &&& TILESTATE_CONTENT) :
    t.hasFlag f.mask = flags.getLsbD f.index := by
  have content : TILESTATE_CONTENT.getLsbD f.index = true := by
    cases f with
    | floorChange d => cases d <;> rfl
    | _ => rfl
  have bit := congrArg (fun x : BitVec 32 => x.getLsbD f.index) e
  simp only [BitVec.getLsbD_and, content, Bool.and_true] at bit
  rw [Tile.hasFlag_mask, bit]

/-- In every run of operations on a tile that spare a flag, the flag is set exactly
when the ground or some item of the tile provides it. -/
theorem TileRun.coherent (h : TileRun pos (Spares f) w t) (parsed : w.items.FloorChanges) :
    t.hasFlag f.mask = true ↔ ∃ i ∈ t.things, (w.face i).provides f = true := by
  suffices coherent : t.Coherent w f from coherent
  induction h with
  | start here isNew =>
      have unset : _ = (0 : BitVec 32).getLsbD f.index :=
        Tile.hasFlag_content f (by rw [isNew.flags]; rfl)
      simp [Tile.Coherent, unset, Tile.things, isNew.ground, isNew.itemList]
  | step op before fresh meets here ih =>
      have turn := before.turn here
      have parsed' := turn.items ▸ parsed
      exact (ih parsed').step parsed' before.nodup fresh meets turn
  | beside before here beside ih =>
      have same := (Tile.hasFlag_content f beside.flags).trans (Tile.hasFlag_mask _ f).symm
      have coherent := ih (beside.items ▸ parsed)
      rw [Tile.Coherent, same]
      refine coherent.trans (exists_congr fun x => ?_)
      simp only [Tile.things, beside.ground, beside.itemList]
      exact and_congr_right fun mem => by rw [beside.face x mem]

/-- What guards its reset and is set by all that provides it is right in every run. -/
theorem TileRun.guarded_coherent (h : TileRun pos (fun _ _ _ => True) w t)
    (parsed : w.items.FloorChanges) (guarded : f.guarded = true)
    (settable : f ≠ .immovableBlockPath) : t.Coherent w f := by
  have spares (w : World) (t : Tile) (op : TileOp) : Spares f w t op := by
    constructor
    · intro o _ forgets
      cases f <;> simp_all [World.forgets, TileFlag.guarded]
    · intro i it _ _
      cases f <;> simp_all [TileFlag.guarded, TileFlag.Settable]
  have run : TileRun pos (Spares f) w t := by
    clear parsed
    induction h with
    | start here isNew => exact .start here isNew
    | step op before fresh meets here ih => exact .step op ih fresh (spares _ _ _) here
    | beside before here beside ih => exact .beside ih here beside
  exact run.coherent parsed

namespace Sample

/-! ### Two walls -/

/-- Walls that hang things, of odd ids, and things that do not, of even ids. -/
def walls : Items where
  type id := { id, isVertical := id % 2 == 1 }
  stackable_isPlain _ h := by simp at h
  stackable_down _ h := by simp at h
  stackable_createdId _ h := by simp at h

def hooked (itemList : List ItemRef) : Tile where
  itemList := itemList
  downItemCount := itemList.length
  flags := World.TILESTATE_SUPPORTS_HANGABLE

/-- A wall, and a second item on it. -/
theorem walled_run {cond : World → Tile → TileOp → Prop} {i : ItemRef} (other : i ∉ [1])
    (meets : ∀ w t op, op.leaving w t = none → cond w t op)
    (here : (((plot walls).apply corner (.addThing 1)).apply corner (.addThing i)).tile corner =
      some (hooked [i, 1]))
    (leaves : (TileOp.addThing i).leaving ((plot walls).apply corner (.addThing 1))
      (hooked [1]) = none) :
    TileRun corner cond (((plot walls).apply corner (.addThing 1)).apply corner (.addThing i))
      (hooked [i, 1]) := by
  have bare : TileRun corner cond (plot walls) {} := .start rfl ⟨rfl, rfl, rfl, by decide⟩
  have one : TileRun corner cond ((plot walls).apply corner (.addThing 1)) (hooked [1]) :=
    bare.step _ (List.not_mem_nil (a := 1)) (meets _ _ _ rfl) rfl
  exact one.step _ other (meets _ _ _ leaves) here

/-- One of two walls is taken away, and the tile holds the other for none. -/
theorem forgotten_wall :
    ∃ w t f, TileRun corner (fun _ _ _ => True) w t ∧ w.items.FloorChanges ∧
      ¬(t.hasFlag (TileFlag.mask f) = true ↔ ∃ i ∈ t.things, (w.face i).provides f = true) := by
  have run : TileRun corner (fun _ _ _ => True) _ (hooked [3, 1]) :=
    walled_run (by decide) (fun _ _ _ _ => trivial) rfl rfl
  refine ⟨_, { itemList := [1], downItemCount := 1 }, .supportsHangable,
    run.step (.removeThing 3 1) trivial trivial rfl, fun _ => .inl rfl, fun flag => ?_⟩
  have clear := flag.mpr ⟨1, List.mem_singleton_self 1, by decide⟩
  exact absurd clear (by decide)

/-- What lay on a wall is taken away. -/
theorem remembered_wall :
    (hooked [1]).hasFlag TileFlag.supportsHangable.mask = true ↔ ∃ i ∈ (hooked [1]).things,
      ((((plot walls).apply corner (.addThing 1)).apply corner (.addThing 2)).apply corner
        (.removeThing 2 1) |>.face i).provides .supportsHangable = true := by
  have run : TileRun corner (Spares .supportsHangable) _ (hooked [2, 1]) :=
    walled_run (by decide)
      (fun w t op none_ => ⟨fun o e => by simp [none_] at e, fun _ _ _ _ => trivial⟩) rfl rfl
  refine (run.step (.removeThing 2 1) trivial ⟨fun o e forgets => ?_, fun _ _ _ _ => trivial⟩
    rfl).coherent fun _ => .inl rfl
  obtain rfl : 2 = o := Option.some.inj e
  exact absurd forgets (by decide)

end Sample

end TibServer
