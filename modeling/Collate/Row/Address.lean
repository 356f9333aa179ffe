import Collate.Bytes.LittleEndian
import Collate.Json.Value

/-!
# Row addresses

The address of a buffered row: the number of its batch and its position there.  Addresses are
ordered by arrival, and are written as eight bytes.
-/

namespace Collate

/-- The address of a buffered row. -/
structure Address where
  batch : UInt32
  row : UInt32
  deriving DecidableEq, Repr

namespace Address

/-- The bytes of a written address. -/
def width : Nat := 8

/-- The order of arrival. -/
def order (a b : Address) : Ordering :=
  (compare a.batch.toNat b.batch.toNat).then (compare a.row.toNat b.row.toNat)

/-- The written address. -/
def bytes (a : Address) : List UInt8 :=
  LittleEndian.encode 4 a.batch.toNat ++ LittleEndian.encode 4 a.row.toNat

/-- The address that is written at the front of bytes. -/
def ofBytes (bs : List UInt8) : Address :=
  ⟨.ofNat (LittleEndian.decode (bs.take 4)), .ofNat (LittleEndian.decode ((bs.drop 4).take 4))⟩

/-- How an address is shown. -/
def text (a : Address) : String := s!"({a.batch}, {a.row})"

/-- The JSON form of an address. -/
def json (a : Address) : Json :=
  .object [("batch_id", .ofNat a.batch.toNat), ("row_id", .ofNat a.row.toNat)]

/-- Addresses in order of arrival. -/
def sort (as : List Address) : List Address := as.mergeSort fun a b => a.order b != .gt

@[simp] theorem ofBytes_bytes (a : Address) : ofBytes a.bytes = a := by
  have front : a.bytes.take 4 = LittleEndian.encode 4 a.batch.toNat := by simp [bytes]
  have back : (a.bytes.drop 4).take 4 = LittleEndian.encode 4 a.row.toNat := by
    simp [bytes, List.take_of_length_le]
  simp [ofBytes, front, back, LittleEndian.decode_encode]

end Address

end Collate
