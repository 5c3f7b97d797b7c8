import Eidolon.Core.Dequantization
import Eidolon.Server.StateUpdates

/-!
# Records of state updates on the client

The records that the server writes and the client decodes hold the indices of a cell in
sixteen bits.  A position whose indices fit comes back in its cell and a little below itself;
any other position comes back in another cell.
-/

namespace Eidolon.Client

open Core Library List Server

structure EntityUpdate where
  entityId : UInt32
  cellX : Int32
  cellZ : Int32
  cellY : Int32
  quantCoord : QuantizedCellCoord
  yaw : QuantizedYaw
  flags : UInt8
  velocity : Vec3Fix
  deriving DecidableEq

variable (chunk : List UInt8)

def u16At (offset : Nat) : UInt16 :=
  UInt16.ofNat (ofBigEndian ((chunk.drop offset).take 2))

def i16At (offset : Nat) : Int32 :=
  (u16At chunk offset).toInt16.toInt32

def readRecord : EntityUpdate where
  entityId := UInt32.ofNat (ofBigEndian (chunk.take 4))
  cellX := i16At chunk 4
  cellZ := i16At chunk 6
  cellY := i16At chunk 8
  quantCoord := QuantizedCellCoord.new (u16At chunk 10) (u16At chunk 14) (u16At chunk 12)
  yaw := QuantizedYaw.fromByte (chunk.getD 16 0)
  flags := chunk.getD 17 0
  velocity :=
    { x := Fixed64.fromI32 (i16At chunk 18)
      y := Fixed64.zero
      z := Fixed64.fromI32 (i16At chunk 20) }

def processStateUpdatePayload (payload : List UInt8) : List EntityUpdate :=
  if recordLen ≤ payload.length then
    readRecord (payload.take recordLen) :: processStateUpdatePayload (payload.drop recordLen)
  else
    []
termination_by payload.length
decreasing_by
  rw [length_drop, recordLen] at *
  omega

def EntityUpdate.globalPosition (update : EntityUpdate) : Vec3Fix :=
  QuantizedCellCoord.dequantizeToGlobal update.cellX update.cellY update.cellZ update.quantCoord

theorem u16At_front (value : UInt16) (rest : List UInt8) :
    u16At (bigEndian 2 value.toNat ++ rest) 0 = value := by
  rw [u16At, drop_zero, take_left' (length_bigEndian 2 _),
    ofBigEndian_bigEndian value.toNat_lt, UInt16.ofNat_toNat]

theorem u16At_skip (width value : Nat) (rest : List UInt8) (offset : Nat) :
    u16At (bigEndian width value ++ rest) (width + offset) = u16At rest offset := by
  rw [u16At, u16At, ← drop_drop, drop_left' (length_bigEndian width value)]

def throughI16 (cell : Int32) : Int32 :=
  cell.toInt16.toInt32

theorem updateRecord_eq (id : UInt32) (mobile : Mobile) : ∃ after, updateRecord id mobile =
      bigEndian 4 id.toNat ++ (bigEndian 2 (cellIndex mobile.position.x 6).toInt16.toUInt16.toNat ++
        (bigEndian 2 (cellIndex mobile.position.z 6).toInt16.toUInt16.toNat ++
        (bigEndian 2 (cellIndex mobile.position.y 5).toInt16.toUInt16.toNat ++
        (bigEndian 2 (quantizeAxis (withinCell mobile.position.x 6) 6 0xFFFF).toNat ++
        (bigEndian 2 (quantizeAxis (withinCell mobile.position.z 6) 6 0xFFFF).toNat ++
        (bigEndian 2 (quantizeAxis (withinCell mobile.position.y 5) 5
          maxQuantizedVertical.toNat).toNat ++ after)))))) := by
  refine ⟨[mobile.yaw.byte, mobile.flags] ++
    (bigEndian 2 (clampToI16 mobile.velocity.x.toI32).toUInt16.toNat ++
      bigEndian 2 (clampToI16 mobile.velocity.z.toI32).toUInt16.toNat), ?_⟩
  rw [updateRecord, QuantizedCellCoord.quantizeFromGlobal, QuantizedCellCoord.quantize]
  simp only [append_assoc]

theorem readRecord_updateRecord (id : UInt32) (mobile : Mobile) :
    (readRecord (updateRecord id mobile)).entityId = id ∧
    (readRecord (updateRecord id mobile)).cellX = throughI16 (cellIndex mobile.position.x 6) ∧
    (readRecord (updateRecord id mobile)).cellY = throughI16 (cellIndex mobile.position.y 5) ∧
    (readRecord (updateRecord id mobile)).cellZ = throughI16 (cellIndex mobile.position.z 6) ∧
    (readRecord (updateRecord id mobile)).quantCoord =
      QuantizedCellCoord.new (quantizeAxis (withinCell mobile.position.x 6) 6 0xFFFF)
        (quantizeAxis (withinCell mobile.position.y 5) 5 maxQuantizedVertical.toNat)
        (quantizeAxis (withinCell mobile.position.z 6) 6 0xFFFF) := by
  obtain ⟨after, laidOut⟩ := updateRecord_eq id mobile
  rw [laidOut]
  refine ⟨?_, ?_, ?_, ?_, ?_⟩
  · change UInt32.ofNat (ofBigEndian (List.take 4 _)) = id
    rw [take_left' (length_bigEndian 4 _), ofBigEndian_bigEndian id.toNat_lt, UInt32.ofNat_toNat]
  · change (u16At _ (4 + 0)).toInt16.toInt32 = _
    rw [u16At_skip, u16At_front]
    rfl
  · change (u16At _ (4 + (2 + (2 + 0)))).toInt16.toInt32 = _
    rw [u16At_skip, u16At_skip, u16At_skip, u16At_front]
    rfl
  · change (u16At _ (4 + (2 + 0))).toInt16.toInt32 = _
    rw [u16At_skip, u16At_skip, u16At_front]
    rfl
  change QuantizedCellCoord.new (u16At _ (4 + (2 + (2 + (2 + 0)))))
    (u16At _ (4 + (2 + (2 + (2 + (2 + (2 + 0)))))))
    (u16At _ (4 + (2 + (2 + (2 + (2 + 0)))))) = _
  simp only [u16At_skip, u16At_front]

/-- What a client reads off the record of an entity. -/
def updateOf (id : UInt32) (mobile : Mobile) : EntityUpdate where
  entityId := id
  cellX := throughI16 (cellIndex mobile.position.x 6)
  cellZ := throughI16 (cellIndex mobile.position.z 6)
  cellY := throughI16 (cellIndex mobile.position.y 5)
  quantCoord := QuantizedCellCoord.new (quantizeAxis (withinCell mobile.position.x 6) 6 0xFFFF)
    (quantizeAxis (withinCell mobile.position.y 5) 5 maxQuantizedVertical.toNat)
    (quantizeAxis (withinCell mobile.position.z 6) 6 0xFFFF)
  yaw := mobile.yaw
  flags := mobile.flags
  velocity :=
    { x := Fixed64.fromI32 (clampToI16 mobile.velocity.x.toI32).toInt32
      y := Fixed64.zero
      z := Fixed64.fromI32 (clampToI16 mobile.velocity.z.toI32).toInt32 }

theorem i16At_length (front : List UInt8) (value : Int16) (rest : List UInt8) :
    i16At (front ++ bigEndian 2 value.toUInt16.toNat ++ rest) front.length = value.toInt32 := by
  have found := u16At_front value.toUInt16 rest
  rw [u16At, drop_zero] at found
  rw [i16At, u16At, append_assoc, drop_left, found]
  rfl

theorem readRecord_updateRecord_eq (id : UInt32) (mobile : Mobile) :
    readRecord (updateRecord id mobile) = updateOf id mobile := by
  obtain ⟨entityId, cellX, cellY, cellZ, coord⟩ := readRecord_updateRecord id mobile
  obtain ⟨front, length, laidOut⟩ : ∃ front : List UInt8, front.length = 16 ∧
      updateRecord id mobile = front ++ [mobile.yaw.byte, mobile.flags] ++
        bigEndian 2 (clampToI16 mobile.velocity.x.toI32).toUInt16.toNat ++
          bigEndian 2 (clampToI16 mobile.velocity.z.toI32).toUInt16.toNat := by
    refine ⟨_, ?_, rfl⟩
    simp only [length_append, length_bigEndian]
  have byteAt : ∀ offset, (updateRecord id mobile).getD (front.length + offset) 0 =
      ([mobile.yaw.byte, mobile.flags] ++
        (bigEndian 2 (clampToI16 mobile.velocity.x.toI32).toUInt16.toNat ++
          bigEndian 2 (clampToI16 mobile.velocity.z.toI32).toUInt16.toNat)).getD offset 0 := by
    intro offset
    rw [laidOut, append_assoc, append_assoc, getD_append_right _ _ _ _ (Nat.le_add_right _ _),
      Nat.add_sub_cancel_left]
  have vx := i16At_length (front ++ [mobile.yaw.byte, mobile.flags])
    (clampToI16 mobile.velocity.x.toI32)
    (bigEndian 2 (clampToI16 mobile.velocity.z.toI32).toUInt16.toNat)
  have vz := i16At_length (front ++ [mobile.yaw.byte, mobile.flags] ++
    bigEndian 2 (clampToI16 mobile.velocity.x.toI32).toUInt16.toNat)
    (clampToI16 mobile.velocity.z.toI32) []
  rw [append_nil] at vz
  simp only [← laidOut, length_append, length, length_bigEndian, length_cons, length_nil]
    at byteAt vx vz
  have yaw : (readRecord (updateRecord id mobile)).yaw = mobile.yaw :=
    congrArg QuantizedYaw.fromByte (byteAt 0)
  have flags : (readRecord (updateRecord id mobile)).flags = mobile.flags := byteAt 1
  have velocity : (readRecord (updateRecord id mobile)).velocity =
      (updateOf id mobile).velocity := by
    rw [readRecord, vx, vz]
    rfl
  generalize readRecord (updateRecord id mobile) = read at *
  cases read
  simp only at *
  rw [updateOf, entityId, cellX, cellY, cellZ, coord, yaw, flags, velocity]
  rfl

theorem processStateUpdatePayload_flatMap (records : List (UInt32 × Mobile)) :
    processStateUpdatePayload (records.flatMap fun record => updateRecord record.1 record.2) =
      records.map fun record => updateOf record.1 record.2 := by
  induction records with
  | nil =>
    rw [processStateUpdatePayload]
    rfl
  | cons record records ih =>
    have sized := length_updateRecord record.1 record.2
    have long : recordLen ≤ (updateRecord record.1 record.2 ++
        records.flatMap fun record => updateRecord record.1 record.2).length := by
      rw [length_append, sized]
      exact Nat.le_add_right _ _
    rw [flatMap_cons, processStateUpdatePayload, if_pos long, take_left' sized,
      drop_left' sized, ih, map_cons, readRecord_updateRecord_eq]

def CellsFit (position : Vec3Fix) : Prop :=
  (-2 ^ 15 ≤ position.x.raw.toInt / 2 ^ 38 ∧ position.x.raw.toInt / 2 ^ 38 < 2 ^ 15) ∧
  (-2 ^ 15 ≤ position.y.raw.toInt / 2 ^ 37 ∧ position.y.raw.toInt / 2 ^ 37 < 2 ^ 15) ∧
  (-2 ^ 15 ≤ position.z.raw.toInt / 2 ^ 38 ∧ position.z.raw.toInt / 2 ^ 38 < 2 ^ 15)

/-- A position is in the same cell as another, and below it by less than a millimetre along
the horizontal axes and 7.82 millimetres along the vertical one. -/
structure JustBelow (position truth : Vec3Fix) : Prop where
  cellX : cellIndex position.x 6 = cellIndex truth.x 6
  cellY : cellIndex position.y 5 = cellIndex truth.y 5
  cellZ : cellIndex position.z 6 = cellIndex truth.z 6
  x : position.x.raw.toInt ≤ truth.x.raw.toInt ∧
    1000 * (truth.x.raw.toInt - position.x.raw.toInt) < 2 ^ 32
  y : position.y.raw.toInt ≤ truth.y.raw.toInt ∧
    100000 * (truth.y.raw.toInt - position.y.raw.toInt) < 782 * 2 ^ 32
  z : position.z.raw.toInt ≤ truth.z.raw.toInt ∧
    1000 * (truth.z.raw.toInt - position.z.raw.toInt) < 2 ^ 32

/-- The record tells the cell that the position is in. -/
structure NamesCell (update : EntityUpdate) (truth : Vec3Fix) : Prop where
  cellX : update.cellX = cellIndex truth.x 6
  cellY : update.cellY = cellIndex truth.y 5
  cellZ : update.cellZ = cellIndex truth.z 6

theorem throughI16_eq_iff {coordinate : Fixed64} {exponent : Nat} (edge : IsEdge exponent) :
    throughI16 (cellIndex coordinate exponent) = cellIndex coordinate exponent ↔
      -2 ^ 15 ≤ coordinate.raw.toInt / 2 ^ (32 + exponent) ∧
        coordinate.raw.toInt / 2 ^ (32 + exponent) < 2 ^ 15 := by
  rw [← toInt_cellIndex edge, throughI16, ← Int32.toInt_inj, Int16.toInt_toInt32,
    Int32.toInt_toInt16]
  constructor
  · have low := @Int.le_bmod (cellIndex coordinate exponent).toInt (2 ^ 16) (by decide)
    have high := @Int.bmod_lt (cellIndex coordinate exponent).toInt (2 ^ 16) (by decide)
    omega
  rintro ⟨low, high⟩
  exact Int.bmod_eq_of_le (by omega) (by omega)

theorem namesCell_iff (id : UInt32) (mobile : Mobile) :
    NamesCell (readRecord (updateRecord id mobile)) mobile.position ↔ CellsFit mobile.position := by
  obtain ⟨-, cellX, cellY, cellZ, -⟩ := readRecord_updateRecord id mobile
  have horizontalX := @throughI16_eq_iff mobile.position.x 6 (.inr rfl)
  have vertical := @throughI16_eq_iff mobile.position.y 5 (.inl rfl)
  have horizontalZ := @throughI16_eq_iff mobile.position.z 6 (.inr rfl)
  rw [← cellX] at horizontalX
  rw [← cellY] at vertical
  rw [← cellZ] at horizontalZ
  constructor
  · intro names
    exact ⟨horizontalX.mp names.cellX, vertical.mp names.cellY, horizontalZ.mp names.cellZ⟩
  rintro ⟨fitsX, fitsY, fitsZ⟩
  exact ⟨horizontalX.mpr fitsX, vertical.mpr fitsY, horizontalZ.mpr fitsZ⟩

theorem new_quantizeAxis (x z : UInt16) (coordinate : Fixed64) :
    QuantizedCellCoord.new x (quantizeAxis coordinate 5 maxQuantizedVertical.toNat) z =
      ⟨x, quantizeAxis coordinate 5 maxQuantizedVertical.toNat, z⟩ := by
  have inside := quantizeAxis_le coordinate 5 maxQuantizedVertical.toNat_lt
  have notAbove : ¬ maxQuantizedVertical <
      quantizeAxis coordinate 5 maxQuantizedVertical.toNat := by
    rw [UInt16.lt_iff_toNat_lt]
    omega
  rw [QuantizedCellCoord.new, if_neg notAbove]

theorem globalPosition_readRecord {id : UInt32} {mobile : Mobile} (fits : CellsFit mobile.position) :
    (readRecord (updateRecord id mobile)).globalPosition = ⟨decodedAxis mobile.position.x 6 0xFFFF,
        decodedAxis mobile.position.y 5 maxQuantizedVertical,
        decodedAxis mobile.position.z 6 0xFFFF⟩ := by
  obtain ⟨cellX, cellY, cellZ⟩ := (namesCell_iff id mobile).mpr fits
  obtain ⟨-, -, -, -, coord⟩ := readRecord_updateRecord id mobile
  have inside := quantizeAxis_le (withinCell mobile.position.y 5) 5 maxQuantizedVertical.toNat_lt
  have limit : maxQuantizedVertical.toNat = 4095 := by decide
  have masked : quantizeAxis (withinCell mobile.position.y 5) 5 maxQuantizedVertical.toNat &&&
      maxQuantizedVertical =
        quantizeAxis (withinCell mobile.position.y 5) 5 maxQuantizedVertical.toNat :=
    @and_eq_self16 _ maxQuantizedVertical 12 (by omega) (by decide)
  rw [EntityUpdate.globalPosition, cellX, cellY, cellZ, coord, new_quantizeAxis,
    QuantizedCellCoord.dequantizeToGlobal, QuantizedCellCoord.dequantize]
  simp only [masked]
  rfl

/-- What is asked of the record of a position: a position whose cell fits in sixteen bits
comes back in its cell and a little below itself, and the record of any other position does
not name another cell in place of its own. -/
structure Conveyed (id : UInt32) (mobile : Mobile) : Prop where
  fitting : CellsFit mobile.position →
    JustBelow (readRecord (updateRecord id mobile)).globalPosition mobile.position
  other : ¬ CellsFit mobile.position →
    NamesCell (readRecord (updateRecord id mobile)) mobile.position

theorem justBelow_globalPosition {id : UInt32} {mobile : Mobile} (fits : CellsFit mobile.position) :
    JustBelow (readRecord (updateRecord id mobile)).globalPosition mobile.position := by
  rw [globalPosition_readRecord fits]
  exact
    { cellX := cellIndex_decodedAxis (.inr rfl) (by decide)
      cellY := cellIndex_decodedAxis (.inl rfl) (by decide)
      cellZ := cellIndex_decodedAxis (.inr rfl) (by decide)
      x := horizontal_loss _
      y := vertical_loss _
      z := horizontal_loss _ }

/-- Cell indices are cut off to sixteen bits without a check. -/
theorem conveyed_iff_cellsFit (id : UInt32) (mobile : Mobile) :
    Conveyed id mobile ↔ CellsFit mobile.position := by
  constructor
  · intro conveyed
    by_contra outside
    exact outside ((namesCell_iff id mobile).mp (conveyed.other outside))
  intro fits
  exact ⟨fun _ => justBelow_globalPosition fits, fun outside => absurd fits outside⟩

def farMobile : Mobile where
  position := Vec3Fix.fromI32 2097152 0 0
  velocity := Vec3Fix.fromI32 0 0 0
  yaw := QuantizedYaw.fromByte 0
  flags := 0

theorem not_conveyed_farMobile : ¬ ∀ id mobile, Conveyed id mobile := by
  intro all
  have outside : ¬ CellsFit farMobile.position := by
    rintro ⟨⟨-, high⟩, -, -⟩
    revert high
    decide
  have names := (all 0 farMobile).other outside
  exact outside ((namesCell_iff 0 farMobile).mp names)

end Eidolon.Client
