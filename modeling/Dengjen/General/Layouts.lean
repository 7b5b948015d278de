import Mathlib.Algebra.Order.Group.Nat
import Mathlib.Data.List.Forall2

/-!
# Structs in memory

The fields of a struct lie one after another, each at the next multiple of its
alignment. A struct is a run of bytes that is read field by field; what lies between
the fields and behind the last one is nobody's.

Fields that are appended to a struct move none of the fields before them. A reader
that copies no more than the writer's struct has, and zeroes the rest of its own,
therefore reads the common fields of two versions of a struct as they were written.
-/

namespace Layouts

/-- A field, with the alignment that its address needs. -/
structure Field where
  size : Nat
  align : Nat
  deriving DecidableEq

/-- The bytes that are skipped to get to a multiple of the alignment. -/
def padding (offset align : Nat) : Nat := (align - offset % align) % align

/-- Where the fields end that start behind the offset. -/
def extent : Nat → List Field → Nat
  | offset, [] => offset
  | offset, field :: fields => extent (offset + padding offset field.align + field.size) fields

/-- Where fields begin, behind an offset. -/
def offsets : Nat → List Field → List Nat
  | _, [] => []
  | offset, field :: fields =>
      (offset + padding offset field.align) ::
        offsets (offset + padding offset field.align + field.size) fields

/-- The alignment of a struct. -/
def alignOf (fields : List Field) : Nat := fields.foldr (fun field => max field.align) 1

/-- The size of a struct, with the padding behind its last field. -/
def totalSize (fields : List Field) : Nat :=
  extent 0 fields + padding (extent 0 fields) (alignOf fields)

section Fields

variable {offset : Nat} {fields later : List Field}

theorem le_extent (offset : Nat) (fields : List Field) : offset ≤ extent offset fields := by
  induction fields generalizing offset with
  | nil => exact Nat.le_refl offset
  | cons field fields ih =>
      calc offset ≤ offset + padding offset field.align + field.size := by omega
        _ ≤ extent offset (field :: fields) := ih _

theorem extent_append : extent offset (fields ++ later) = extent (extent offset fields) later := by
  induction fields generalizing offset with
  | nil => rfl
  | cons field fields ih => exact ih

theorem extent_le_totalSize_append : extent 0 fields ≤ totalSize (fields ++ later) := by
  rw [totalSize, extent_append]
  exact Nat.le_add_right_of_le (le_extent _ _)

end Fields

section Images

variable {Byte : Type*}

/-- The bytes of each field. -/
def decode : Nat → List Field → List Byte → List (List Byte)
  | _, [], _ => []
  | offset, field :: fields, image =>
      let start := padding offset field.align
      (image.drop start).take field.size ::
        decode (offset + start + field.size) fields (image.drop (start + field.size))

/-- The values of the fields, with zeroes between them. -/
def encode (zero : Byte) : Nat → List Field → List (List Byte) → List Byte
  | offset, field :: fields, value :: values =>
      let start := padding offset field.align
      List.replicate start zero ++ value ++ encode zero (offset + start + field.size) fields values
  | _, _, _ => []

/-- Every field has a value of its size. -/
def Fits (fields : List Field) (values : List (List Byte)) : Prop :=
  List.Forall₂ (fun field value => value.length = field.size) fields values

variable {zero : Byte} {offset size declared count : Nat} {fields later : List Field}
  {values : List (List Byte)} {image beyond : List Byte}

theorem length_encode (h : Fits fields values) :
    (encode zero offset fields values).length + offset = extent offset fields := by
  induction h generalizing offset with
  | nil => exact Nat.zero_add offset
  | @cons field value fields values hsize _ ih =>
      rw [extent, ← ih, encode, List.length_append, List.length_append, List.length_replicate, hsize]
      omega

theorem decode_encode (h : Fits fields values) (beyond : List Byte) :
    decode offset fields (encode zero offset fields values ++ beyond) = values := by
  induction h generalizing offset with
  | nil => rfl
  | @cons field value fields values hsize _ ih =>
      have hstart : (List.replicate (padding offset field.align) zero).length =
        padding offset field.align := List.length_replicate
      rw [encode, decode]
      congr 1
      · rw [List.append_assoc, List.append_assoc, List.drop_left' hstart, List.take_left' hsize]
      · rw [List.append_assoc, List.drop_left', ih]
        rw [List.length_append, hstart, hsize]

/-- The fields behind others lie where the others end. -/
theorem decode_append :
    decode offset (fields ++ later) image = decode offset fields image ++
      decode (extent offset fields) later (image.drop (extent offset fields - offset)) := by
  induction fields generalizing offset image with
  | nil => simp [decode, extent]
  | cons field fields ih =>
      rw [List.cons_append, decode, ih, decode, List.cons_append, extent, List.drop_drop]
      have hle := le_extent (offset + padding offset field.align + field.size) fields
      congr 4
      omega

/-- Only the bytes up to the end of the last field are read. -/
theorem decode_take (h : extent offset fields ≤ offset + count) :
    decode offset fields (image.take count) = decode offset fields image := by
  induction fields generalizing offset image count with
  | nil => rfl
  | cons field fields ih =>
      have hle := le_extent (offset + padding offset field.align + field.size) fields
      rw [extent] at h
      rw [decode, decode, List.drop_take, List.drop_take, List.take_take, ih (by omega),
        Nat.min_eq_left (by omega)]

theorem decode_append_image (h : extent offset fields ≤ offset + image.length) :
    decode offset fields (image ++ beyond) = decode offset fields image := by
  rw [← decode_take h, List.take_left]

/-- Zeroes are read as zeroes. -/
theorem decode_replicate (h : extent offset fields ≤ offset + count) :
    decode offset fields (List.replicate count zero) =
      fields.map fun field => List.replicate field.size zero := by
  induction fields generalizing offset count with
  | nil => rfl
  | cons field fields ih =>
      have hle := le_extent (offset + padding offset field.align + field.size) fields
      rw [extent] at h
      rw [decode, List.drop_replicate, List.drop_replicate, List.take_replicate, ih (by omega),
        List.map_cons, Nat.min_eq_left (by omega)]

/-! ## Structs that are stored field by field -/

/-- Store bytes at an offset. -/
def put (image : List Byte) (offset : Nat) (bytes : List Byte) : List Byte :=
  image.take offset ++ bytes ++ image.drop (offset + bytes.length)

/-- An image with the bytes of fields in their places. -/
def putAll (image : List Byte) (offsets : List Nat) (values : List (List Byte)) : List Byte :=
  (offsets.zip values).foldl (fun image field => put image field.1 field.2) image

/-- To store bytes in zeroed memory skips what is before them. -/
theorem put_zeroes {front bytes : List Byte} {start : Nat} (h : start + bytes.length ≤ count) :
    put (front ++ List.replicate count zero) (front.length + start) bytes =
      front ++ List.replicate start zero ++ bytes ++
        List.replicate (count - (start + bytes.length)) zero := by
  rw [put, List.take_length_add_append, List.take_replicate, Nat.min_eq_left (by omega),
    Nat.add_assoc, List.drop_length_add_append, List.drop_replicate]

/-- Memory that was zeroed holds the struct once its fields are stored at their offsets. -/
theorem putAll_zeroes {front : List Byte} (h : Fits fields values) (hfront : front.length = offset)
    (hcount : extent offset fields = offset + count) :
    putAll (front ++ List.replicate count zero) (offsets offset fields) values =
      front ++ encode zero offset fields values := by
  induction h generalizing offset front count with
  | nil =>
      have hzero : count = 0 := by
        rw [extent] at hcount
        omega
      rw [hzero]
      rfl
  | @cons field value fields values hsize _ ih =>
      have hle := le_extent (offset + padding offset field.align + field.size) fields
      rw [extent] at hcount
      rw [offsets, putAll, List.zip_cons_cons, List.foldl_cons, ← hfront,
        put_zeroes (by rw [hsize, hfront]; omega)]
      have hlength : (front ++ List.replicate (padding front.length field.align) zero ++
          value).length = front.length + padding front.length field.align + field.size := by
        rw [List.length_append, List.length_append, List.length_replicate, hsize]
      have hcount : extent (front.length + padding front.length field.align + field.size) fields =
          front.length + padding front.length field.align + field.size +
            (count - (padding front.length field.align + value.length)) := by
        rw [hsize, hfront]
        omega
      have hrest := ih hlength hcount
      rw [putAll] at hrest
      rw [hrest, encode, ← List.append_assoc, ← List.append_assoc]

/-! ## Copies of structs of another version -/

/-- The reader's struct, with what the writer declared of its own. -/
def copied (zero : Byte) (size declared : Nat) (image : List Byte) : List Byte :=
  image.take (min declared size) ++ List.replicate (size - min declared size) zero

/-- Fields that both versions have are read as they were written. -/
theorem decode_copied (hdeclared : extent 0 fields ≤ declared) (hsize : extent 0 fields ≤ size)
    (htrue : declared ≤ image.length) :
    decode 0 fields (copied zero size declared image) = decode 0 fields image := by
  rw [copied, decode_append_image, decode_take]
  · omega
  · rw [List.length_take]
    omega

/-- Fields that the writer does not have are read as zeroes, where its struct ends with its last
field. -/
theorem decode_copied_append (hdeclared : extent 0 fields = declared)
    (hsize : extent 0 (fields ++ later) ≤ size) (htrue : declared ≤ image.length) :
    decode 0 (fields ++ later) (copied zero size declared image) =
      decode 0 fields image ++ later.map fun field => List.replicate field.size zero := by
  rw [extent_append] at hsize
  have hle := le_extent (extent 0 fields) later
  rw [decode_append, decode_copied (Nat.le_of_eq hdeclared) (by omega) htrue, Nat.sub_zero, copied,
    List.drop_left', decode_replicate]
  · omega
  · rw [List.length_take]
    omega

end Images

/-! ## Numbers -/

/-- The lowest bytes of a number, lowest first. -/
def leBytes : Nat → Nat → List UInt8
  | 0, _ => []
  | count + 1, value => .ofNat value :: leBytes count (value / 256)

/-- The number of bytes, of which the first is the least. -/
def ofLeBytes (bytes : List UInt8) : Nat := bytes.foldr (fun byte rest => byte.toNat + 256 * rest) 0

@[simp] theorem length_leBytes (count value : Nat) : (leBytes count value).length = count := by
  induction count generalizing value with
  | zero => rfl
  | succ count ih => exact congrArg (· + 1) (ih _)

theorem ofLeBytes_leBytes {count value : Nat} (h : value < 256 ^ count) :
    ofLeBytes (leBytes count value) = value := by
  induction count generalizing value with
  | zero =>
      rw [Nat.pow_zero, Nat.lt_one_iff] at h
      exact h.symm
  | succ count ih =>
      have hrest : value / 256 < 256 ^ count :=
        Nat.div_lt_of_lt_mul (by rwa [Nat.pow_succ, Nat.mul_comm] at h)
      calc ofLeBytes (leBytes (count + 1) value)
          = (UInt8.ofNat value).toNat + 256 * ofLeBytes (leBytes count (value / 256)) := rfl
        _ = value % 256 + 256 * (value / 256) := by rw [ih hrest, UInt8.toNat_ofNat']
        _ = value := Nat.mod_add_div value 256

end Layouts
