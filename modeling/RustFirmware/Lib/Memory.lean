/-
  RustFirmware.Lib.Memory
  ───────────────────────
  **A FLAT BYTE MEMORY: LOADS, STORES, AND WHAT A STORE LEAVES ALONE.**

  A memory gives a byte at every address.  Two ranges are `Apart` if no address is in
  both; a store changes what is loaded from its own range and from no range apart
  from it.  A `Codec` is a type whose values take a fixed number of bytes, so that a
  structure in memory is a family of codecs at addresses pairwise apart.
-/
import RustFirmware.Lib.LittleEndian

namespace RustFirmware.Lib

/-- A byte at every address. -/
abbrev Memory := Nat → UInt8

/-- The `length` bytes at `address`. -/
def load (memory : Memory) (address length : Nat) : Bytes :=
  (List.range length).map (fun i => memory (address + i))

/-- The memory with `bytes` at `address`. -/
def store (memory : Memory) (address : Nat) (bytes : Bytes) : Memory := fun a =>
  if address ≤ a then (bytes[a - address]?).getD (memory a) else memory a

/-- The address is one of the `length` at `start`. -/
def Within (start length a : Nat) : Prop := start ≤ a ∧ a < start + length

instance (start length a : Nat) : Decidable (Within start length a) := by
  unfold Within
  infer_instance

/-- No address is in both ranges. -/
def Apart (start length start' length' : Nat) : Prop :=
  start + length ≤ start' ∨ start' + length' ≤ start

instance (start length start' length' : Nat) : Decidable (Apart start length start' length') := by
  unfold Apart
  infer_instance

variable {memory memory' : Memory} {address address' length length' : Nat} {bytes : Bytes}

theorem Apart.symm (h : Apart address length address' length') :
    Apart address' length' address length := Or.symm h

/-- Ranges inside ranges that are apart are apart. -/
theorem Apart.mono {start n start' n' : Nat} (h : Apart start n start' n')
    (hlo : start ≤ address) (hhi : address + length ≤ start + n)
    (hlo' : start' ≤ address') (hhi' : address' + length' ≤ start' + n') :
    Apart address length address' length' := by
  unfold Apart at h ⊢
  omega

theorem Apart.not_within (h : Apart address length address' length') {a : Nat}
    (ha : Within address length a) : ¬ Within address' length' a := by
  unfold Apart Within at *
  omega

/-! ## §1. Loads. -/

@[simp] theorem load_length (memory : Memory) (address length : Nat) :
    (load memory address length).length = length := by
  simp [load]

theorem load_getElem? {i : Nat} (h : i < length) :
    (load memory address length)[i]? = some (memory (address + i)) := by
  simp [load, h]

/-- What is loaded from a range depends on that range only. -/
theorem load_congr (h : ∀ a, Within address length a → memory' a = memory a) :
    load memory' address length = load memory address length := by
  apply List.map_congr_left
  intro i hi
  have hlt := List.mem_range.mp hi
  exact h _ ⟨Nat.le_add_right _ _, by omega⟩

theorem load_add (memory : Memory) (address m n : Nat) :
    load memory address (m + n) = load memory address m ++ load memory (address + m) n := by
  unfold load
  rw [List.range_add, List.map_append, List.map_map]
  congr 1
  apply List.map_congr_left
  intro i _
  show memory (address + (m + i)) = memory (address + m + i)
  rw [Nat.add_assoc]

/-! ## §2. Stores. -/

@[simp] theorem store_nil (memory : Memory) (address : Nat) : store memory address [] = memory := by
  funext a
  simp [store]

/-- Inside the range stands what was stored. -/
theorem store_within {a : Nat} (h : Within address bytes.length a) :
    some (store memory address bytes a) = bytes[a - address]? := by
  unfold Within at h
  unfold store
  rw [if_pos h.1, List.getElem?_eq_getElem (by omega)]
  rfl

/-- **The frame of a store.** -/
theorem store_outside {a : Nat} (h : ¬ Within address bytes.length a) :
    store memory address bytes a = memory a := by
  unfold Within at h
  unfold store
  split
  next hle =>
    rw [List.getElem?_eq_none (by omega)]
    rfl
  next => rfl

/-- **A store is read back.** -/
theorem load_store (memory : Memory) (address : Nat) (bytes : Bytes) :
    load (store memory address bytes) address bytes.length = bytes := by
  apply List.ext_getElem?
  intro i
  by_cases hi : i < bytes.length
  · rw [load_getElem? hi, store_within ⟨Nat.le_add_right _ _, by omega⟩, Nat.add_sub_cancel_left]
  · rw [List.getElem?_eq_none (by rw [load_length]; omega), List.getElem?_eq_none (by omega)]

/-- **A store is not seen apart from its range.** -/
theorem load_store_apart (h : Apart address' length' address bytes.length) :
    load (store memory address bytes) address' length' = load memory address' length' :=
  load_congr (fun _ ha => store_outside (h.not_within ha))

/-- Storing what is there changes nothing. -/
theorem store_load (memory : Memory) (address length : Nat) :
    store memory address (load memory address length) = memory := by
  funext a
  by_cases ha : Within address (load memory address length).length a
  · apply Option.some.inj
    obtain ⟨hle, hlt⟩ := id ha
    rw [load_length] at hlt
    rw [store_within ha, load_getElem? (by omega), Nat.add_sub_cancel' hle]
  · exact store_outside ha

/-- The beginning of what is stored is read back. -/
theorem load_store_take {n : Nat} (h : n ≤ bytes.length) :
    load (store memory address bytes) address n = bytes.take n := by
  apply List.ext_getElem?
  intro i
  by_cases hi : i < n
  · have hwithin : Within address bytes.length (address + i) := ⟨Nat.le_add_right _ _, by omega⟩
    rw [load_getElem? hi, store_within hwithin, Nat.add_sub_cancel_left, List.getElem?_take_of_lt hi]
  · rw [List.getElem?_eq_none (by rw [load_length]; omega),
      List.getElem?_eq_none (by rw [List.length_take]; omega)]

/-- The beginning of a load is a load. -/
theorem load_take {n : Nat} (h : n ≤ length) :
    (load memory address length).take n = load memory address n := by
  obtain ⟨rest, rfl⟩ := Nat.exists_eq_add_of_le h
  rw [load_add, List.take_left' (load_length memory address n)]

/-- Two stores, the second right behind the first, are one. -/
theorem store_append (memory : Memory) (address : Nat) (bytes bytes' : Bytes) :
    store (store memory address bytes) (address + bytes.length) bytes'
      = store memory address (bytes ++ bytes') := by
  funext a
  by_cases hle : address ≤ a
  · by_cases hlt : a < address + bytes.length
    · have hin : a - address < bytes.length := by omega
      simp [store, hle, hin, Nat.not_le.mpr hlt, List.getElem?_append_left]
    · have hout : bytes.length ≤ a - address := by omega
      have hle' : address + bytes.length ≤ a := by omega
      have hsub : a - (address + bytes.length) = a - address - bytes.length := by omega
      simp [store, hle, hle', hout, hsub, List.getElem?_append_right]
  · have hle' : ¬ address + bytes.length ≤ a := by omega
    simp [store, hle, hle']

/-- A store inside a range overwrites what is loaded from it. -/
theorem load_store_inside {offset : Nat} (h : offset + bytes.length ≤ length) :
    load (store memory (address + offset) bytes) address length
      = overwrite (load memory address length) offset bytes := by
  apply List.ext_getElem?
  intro i
  rw [overwrite_getElem? (by rw [load_length]; exact h)]
  by_cases hi : i < length
  · rw [load_getElem? hi]
    split
    next hin =>
      rw [store_within ⟨by omega, by omega⟩, show address + i - (address + offset) = i - offset by omega]
    next hout => rw [load_getElem? hi, store_outside (fun h => hout ⟨by have := h.1; omega, by have := h.2; omega⟩)]
  · rw [List.getElem?_eq_none (by rw [load_length]; omega), if_neg (by omega),
      List.getElem?_eq_none (by rw [load_length]; omega)]

/-! ## §3. Values of a fixed size. -/

/-- Values that take `size` bytes, and how they are written and read. -/
structure Codec (α : Type) where
  size          : Nat
  encode        : α → Bytes
  decode        : Bytes → α
  encode_length : ∀ a, (encode a).length = size
  decode_encode : ∀ a, decode (encode a) = a

namespace Codec

variable {α β : Type} (codec : Codec α) (codec' : Codec β)

/-- The value at an address. -/
def get (memory : Memory) (address : Nat) : α := codec.decode (load memory address codec.size)

/-- The memory with the value at an address. -/
def set (memory : Memory) (address : Nat) (a : α) : Memory := store memory address (codec.encode a)

@[simp] theorem get_set (memory : Memory) (address : Nat) (a : α) :
    codec.get (codec.set memory address a) address = a := by
  unfold get set
  rw [← codec.encode_length a, load_store, codec.decode_encode]

/-- A value apart from the one written keeps its own. -/
theorem get_set_apart (memory : Memory) {address address' : Nat}
    (h : Apart address' codec'.size address codec.size) (a : α) :
    codec'.get (codec.set memory address a) address' = codec'.get memory address' := by
  unfold get set
  rw [load_store_apart (by rw [codec.encode_length]; exact h)]

theorem get_congr (memory : Memory) {memory' : Memory} {address : Nat}
    (h : ∀ a, Within address codec.size a → memory' a = memory a) :
    codec.get memory' address = codec.get memory address := by
  unfold get
  rw [load_congr h]

theorem set_outside (memory : Memory) {a : Nat} (value : α) (h : ¬ Within address codec.size a) :
    codec.set memory address value a = memory a :=
  store_outside (by rw [codec.encode_length]; exact h)

/-- One value and then another. -/
def pair : Codec (α × β) where
  size := codec.size + codec'.size
  encode p := codec.encode p.1 ++ codec'.encode p.2
  decode bytes := (codec.decode (bytes.take codec.size), codec'.decode (bytes.drop codec.size))
  encode_length p := by rw [List.length_append, codec.encode_length, codec'.encode_length]
  decode_encode p := by
    rw [← codec.encode_length p.1, List.take_left, List.drop_left, codec.decode_encode,
      codec'.decode_encode]

/-- The values of a type that is another in all but its name. -/
def map (f : α → β) (g : β → α) (hfg : ∀ b, f (g b) = b) : Codec β where
  size := codec.size
  encode b := codec.encode (g b)
  decode bytes := f (codec.decode bytes)
  encode_length b := codec.encode_length (g b)
  decode_encode b := by rw [codec.decode_encode, hfg]

end Codec

/-! ## §4. Little-endian words. -/

def codec16 : Codec UInt16 where
  size := 2
  encode a := leBytes 2 a.toNat
  decode bytes := UInt16.ofNat (leNat bytes)
  encode_length a := leBytes_length 2 a.toNat
  decode_encode a := by rw [leNat_leBytes_of_lt a.toNat_lt, UInt16.ofNat_toNat]

def codec32 : Codec UInt32 where
  size := 4
  encode a := leBytes 4 a.toNat
  decode bytes := UInt32.ofNat (leNat bytes)
  encode_length a := leBytes_length 4 a.toNat
  decode_encode a := by rw [leNat_leBytes_of_lt a.toNat_lt, UInt32.ofNat_toNat]

def codec64 : Codec UInt64 where
  size := 8
  encode a := leBytes 8 a.toNat
  decode bytes := UInt64.ofNat (leNat bytes)
  encode_length a := leBytes_length 8 a.toNat
  decode_encode a := by rw [leNat_leBytes_of_lt a.toNat_lt, UInt64.ofNat_toNat]

end RustFirmware.Lib
