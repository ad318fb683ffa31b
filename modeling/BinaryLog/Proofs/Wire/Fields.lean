import BinaryLog.Proofs.Wire.Framing
import Mathlib.Algebra.Group.Nat.Defs

/-!
# Records as lists of fields

The octets of a record determine its fields. A `Field` is a number and a `Value` of one of the three
forms, and `encodeFields` is the octets of fields, one after another.

* `encodeFields_injective`: no two lists of fields have the same octets, because each field shows
  where it ends (`Field.encode_append_inj`).
* `numberField_eq`, `codeField_eq`, `wordField_eq`, `bytesField_eq`, `recordField_eq`: what is
  written of a record are the octets of fields, of which those with a default value are left out.
* `held_eq_of_encode_eq`: records with the same octets hold the same under every number; with
  `held_unlessDefault` and `held_map`, and since a value is known also when its field was left out
  (`Value.eq_of_present_eq`), this tells the parts of a record.
-/

namespace BinaryLog.Wire

/-! ## What shows where it ends -/

theorem varint_append_inj {n m : Nat} {s t : Bytes} (h : varint n ++ s = varint m ++ t) :
    n = m ∧ s = t := by
  have hread := congrArg readVarint h
  rwa [readVarint_varint, readVarint_varint, Option.some.injEq, Prod.mk.injEq] at hread

theorem frame_append_inj {b c s t : Bytes} (h : frame b ++ s = frame c ++ t) : b = c ∧ s = t := by
  have hread := congrArg readFrame h
  rwa [readFrame_frame, readFrame_frame, Option.some.injEq, Prod.mk.injEq] at hread

theorem Form.code_lt (form : Form) : form.code < 8 := by
  cases form <;> decide

theorem Form.code_injective : Function.Injective Form.code := by
  intro form form' h
  cases form <;> cases form' <;> simp_all [code]

theorem key_append_inj {field field' : Nat} {form form' : Form} {s t : Bytes}
    (h : key field form ++ s = key field' form' ++ t) : field = field' ∧ form = form' ∧ s = t := by
  obtain ⟨hkey, hrest⟩ := varint_append_inj h
  -- the code of a form is the key modulo eight
  have := form.code_lt
  have := form'.code_lt
  exact ⟨by omega, Form.code_injective (by omega), hrest⟩

/-- The number in so many octets is known from them. -/
theorem littleEndian_append_inj {width n m : Nat} {s t : Bytes} (hn : n < 256 ^ width)
    (hm : m < 256 ^ width) (h : littleEndian width n ++ s = littleEndian width m ++ t) :
    n = m ∧ s = t := by
  induction width generalizing n m with
  | zero => exact ⟨by omega, h⟩
  | succ width ih =>
    rw [littleEndian, littleEndian, List.cons_append, List.cons_append, List.cons.injEq] at h
    rw [Nat.pow_succ] at hn hm
    obtain ⟨hhigh, hrest⟩ := ih (by omega) (by omega) h.2
    -- the first octet is the number modulo 256, the others are those of the quotient
    have hlow := congrArg UInt8.toNat h.1
    rw [UInt8.toNat_ofNat', UInt8.toNat_ofNat'] at hlow
    exact ⟨by omega, hrest⟩

/-! ## Fields -/

/-- What a field can hold. -/
inductive Value where
  | number (n : Nat)
  | eight (word : UInt64)
  | delimited (bytes : Bytes)
  deriving DecidableEq, Repr

namespace Value

def form : Value → Form
  | number _ => .number
  | eight _ => .eight
  | delimited _ => .delimited

def encode : Value → Bytes
  | number n => varint n
  | eight word => littleEndian 8 word.toNat
  | delimited bytes => frame bytes

/-- Whether a value is what a reader assumes where the field is missing. -/
def isDefault : Value → Bool
  | number n => n == 0
  | eight word => word == 0
  | delimited bytes => bytes.isEmpty

/-- The value, if it is not the default. -/
def present (v : Value) : List Value := if v.isDefault then [] else [v]

theorem encode_append_inj {v w : Value} {s t : Bytes} (hform : v.form = w.form)
    (h : v.encode ++ s = w.encode ++ t) : v = w ∧ s = t := by
  cases v <;> cases w <;> cases hform
  case number.number.refl n m =>
    obtain ⟨rfl, hrest⟩ := varint_append_inj h
    exact ⟨rfl, hrest⟩
  case eight.eight.refl word word' =>
    obtain ⟨hword, hrest⟩ := littleEndian_append_inj word.toNat_lt word'.toNat_lt h
    exact ⟨by rw [UInt64.toNat_inj.1 hword], hrest⟩
  case delimited.delimited.refl bytes bytes' =>
    obtain ⟨rfl, hrest⟩ := frame_append_inj h
    exact ⟨rfl, hrest⟩

/-- A value is known from its form even when it is left out. -/
theorem eq_of_present_eq {v w : Value} (hform : v.form = w.form) (h : v.present = w.present) :
    v = w := by
  unfold present at h
  split at h <;> split at h
  · rename_i hv hw
    cases v <;> cases w <;> cases hform <;> simp_all [isDefault]
  · cases h
  · cases h
  · exact List.singleton_inj.1 h

@[simp] theorem present_number_inj {n m : Nat} :
    (number n).present = (number m).present ↔ n = m :=
  ⟨fun h => number.inj (eq_of_present_eq (by simp only [form]) h), fun h => h ▸ rfl⟩

@[simp] theorem present_eight_inj {word word' : UInt64} :
    (eight word).present = (eight word').present ↔ word = word' :=
  ⟨fun h => eight.inj (eq_of_present_eq (by simp only [form]) h), fun h => h ▸ rfl⟩

@[simp] theorem present_delimited_inj {bytes bytes' : Bytes} :
    (delimited bytes).present = (delimited bytes').present ↔ bytes = bytes' :=
  ⟨fun h => delimited.inj (eq_of_present_eq (by simp only [form]) h), fun h => h ▸ rfl⟩

end Value

/-- A field: its number and what it holds. -/
structure Field where
  number : Nat
  value : Value
  deriving DecidableEq, Repr

def Field.encode (f : Field) : Bytes := key f.number f.value.form ++ f.value.encode

/-- The octets of fields, one after another. -/
def encodeFields (fields : List Field) : Bytes := fields.flatMap Field.encode

theorem Field.encode_append_inj {f g : Field} {s t : Bytes} (h : f.encode ++ s = g.encode ++ t) :
    f = g ∧ s = t := by
  rw [encode, encode, List.append_assoc, List.append_assoc] at h
  obtain ⟨hnumber, hform, h⟩ := key_append_inj h
  obtain ⟨hvalue, hrest⟩ := Value.encode_append_inj hform h
  cases f
  cases g
  exact ⟨by rw [Field.mk.injEq]; exact ⟨hnumber, hvalue⟩, hrest⟩

theorem Field.encode_ne_nil (f : Field) : f.encode ≠ [] := by
  simp [encode, key, varint_ne_nil]

/-- **The octets of a record determine its fields.** -/
theorem encodeFields_injective : Function.Injective encodeFields := by
  intro fs gs h
  unfold encodeFields at h
  induction fs generalizing gs with
  | nil =>
    cases gs with
    | nil => rfl
    | cons g gs => simp [Field.encode_ne_nil] at h
  | cons f fs ih =>
    cases gs with
    | nil => simp [Field.encode_ne_nil] at h
    | cons g gs =>
      obtain ⟨rfl, hrest⟩ := Field.encode_append_inj h
      rw [ih hrest]

theorem encodeFields_append (fs gs : List Field) :
    encodeFields fs ++ encodeFields gs = encodeFields (fs ++ gs) := List.flatMap_append.symm

/-! ## What is written of a record -/

/-- A field, unless it holds the default. -/
def unlessDefault (number : Nat) (v : Value) : List Field := v.present.map (Field.mk number)

/-- The number that stands for a code. -/
def codeNumber (code : Int32) : Nat := (code.toInt % UInt64.size).toNat

theorem codeNumber_injective : Function.Injective codeNumber := by
  intro a b h
  have ha := a.le_toInt
  have ha' := a.toInt_lt
  have hb := b.le_toInt
  have hb' := b.toInt_lt
  unfold codeNumber UInt64.size at h
  exact Int32.toInt_inj.1 (by omega)

section
variable (field : Nat)

theorem recordField_eq (record : Bytes) :
    recordField field record = encodeFields [⟨field, .delimited record⟩] := by
  simp [recordField, encodeFields, Field.encode, Value.form, Value.encode, frame]

theorem encodeFields_unlessDefault (v : Value) :
    encodeFields (unlessDefault field v) =
      if v.isDefault then [] else key field v.form ++ v.encode := by
  unfold unlessDefault Value.present
  split
  · rfl
  · simp [encodeFields, Field.encode]

theorem numberField_eq (n : Nat) :
    numberField field n = encodeFields (unlessDefault field (.number n)) := by
  simp [encodeFields_unlessDefault, numberField, Value.isDefault, Value.form, Value.encode]

theorem codeField_eq (code : Int32) :
    codeField field code = encodeFields (unlessDefault field (.number (codeNumber code))) :=
  numberField_eq field _

theorem wordField_eq (word : UInt64) :
    wordField field word = encodeFields (unlessDefault field (.eight word)) := by
  simp [encodeFields_unlessDefault, wordField, Value.isDefault, Value.form, Value.encode]

theorem bytesField_eq (bytes : Bytes) :
    bytesField field bytes = encodeFields (unlessDefault field (.delimited bytes)) := by
  simp [encodeFields_unlessDefault, bytesField, recordField, frame, Value.isDefault, Value.form,
    Value.encode]

end

/-! ## What a record holds -/

/-- The values of the fields of a number. -/
def held (number : Nat) (fields : List Field) : List Value :=
  (fields.filter (·.number == number)).map Field.value

@[simp] theorem held_append (number : Nat) (fs gs : List Field) :
    held number (fs ++ gs) = held number fs ++ held number gs := by
  simp [held]

@[simp] theorem held_map {α : Type} (number field : Nat) (value : α → Value) (l : List α) :
    held number (l.map fun a => ⟨field, value a⟩) = if field = number then l.map value else [] := by
  rw [held, List.filter_map, List.map_map]
  split
  · rename_i h
    rw [List.filter_eq_self.2 (by simp [h])]
    rfl
  · rename_i h
    rw [List.filter_eq_nil_iff.2 (by simp [h]), List.map_nil]

@[simp] theorem held_unlessDefault (number field : Nat) (v : Value) :
    held number (unlessDefault field v) = if field = number then v.present else [] := by
  rw [unlessDefault, held_map, List.map_id']

theorem held_eq_of_encode_eq {fs gs : List Field} (h : encodeFields fs = encodeFields gs)
    (number : Nat) : held number fs = held number gs := by
  rw [encodeFields_injective h]

end BinaryLog.Wire
