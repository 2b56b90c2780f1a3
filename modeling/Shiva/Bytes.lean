import Mathlib.Data.List.Basic
import Mathlib.Algebra.Group.Nat.Basic

/-!
# Byte images

`shiva-ld` handles an ELF file as a flat run of bytes: the image the ELF library maps, the
temporary file it writes out, and the C strings it copies in.

* `leBytes`, `leValue`: fixed-width little-endian fields, with the round trips
  `leValue_leBytes` and `leBytes_leValue`.
* `readLe`, `writeBytes`: a field read out of an image, and bytes written over an image in place;
  **`getElem?_writeBytes`** says what every byte of the result is.
* `cStringBytes`, `CStr`: the bytes up to the first NUL, and a C string as a NUL-free byte list
  held in memory; `cStringBytes_withNul` reads a C string back from the bytes `strcpy` or
  `write` put down.
-/

namespace Shiva

/-! ## Little-endian fields -/

/-- The `w` little-endian bytes of `x`; bits above `8 * w` are dropped. -/
def leBytes : Nat → Nat → List UInt8
  | 0, _ => []
  | w + 1, x => UInt8.ofNat (x % 256) :: leBytes w (x / 256)

/-- The value of a little-endian field. -/
def leValue : List UInt8 → Nat
  | [] => 0
  | b :: bs => b.toNat + 256 * leValue bs

@[simp] theorem length_leBytes (w x : Nat) : (leBytes w x).length = w := by
  induction w generalizing x <;> simp [leBytes, *]

theorem leValue_leBytes (w x : Nat) : leValue (leBytes w x) = x % 256 ^ w := by
  induction w generalizing x with
  | zero => simp [leBytes, leValue, Nat.mod_one]
  | succ w ih =>
    rw [leBytes, leValue, ih, Nat.pow_succ', Nat.mod_mul,
      UInt8.toNat_ofNat_of_lt (Nat.mod_lt _ (by decide))]

theorem leValue_lt (bs : List UInt8) : leValue bs < 256 ^ bs.length := by
  induction bs with
  | nil => simp [leValue]
  | cons b bs ih =>
    have hb := UInt8.toNat_lt_size b
    simp only [leValue, List.length_cons, Nat.pow_succ']
    change b.toNat < 256 at hb
    omega

theorem ofNat_toNat_byte (b : UInt8) : UInt8.ofNat b.toNat = b :=
  UInt8.toNat.inj (UInt8.toNat_ofNat_of_lt (UInt8.toNat_lt_size b))

theorem leBytes_leValue (bs : List UInt8) : leBytes bs.length (leValue bs) = bs := by
  induction bs with
  | nil => rfl
  | cons b bs ih =>
    have hb : b.toNat < 256 := UInt8.toNat_lt_size b
    have h₁ : (b.toNat + 256 * leValue bs) % 256 = b.toNat := by omega
    have h₂ : (b.toNat + 256 * leValue bs) / 256 = leValue bs := by omega
    rw [List.length_cons, leBytes, leValue, h₁, h₂, ih, ofNat_toNat_byte]

/-- The `w` bytes of `mem` from offset `off` (fewer past its end). -/
def slice (mem : List UInt8) (off w : Nat) : List UInt8 := (mem.drop off).take w

/-- The little-endian field of `w` bytes at offset `off` of `mem`. -/
def readLe (mem : List UInt8) (off w : Nat) : Nat := leValue (slice mem off w)

theorem readLe_append_of_le {pre : List UInt8} {off : Nat} (rest : List UInt8) (w : Nat)
    (h : pre.length ≤ off) : readLe (pre ++ rest) off w = readLe rest (off - pre.length) w := by
  simp [readLe, slice, List.drop_append_eq_append_drop, List.drop_eq_nil_of_le h]

@[simp] theorem readLe_leBytes_append (w x : Nat) (rest : List UInt8) :
    readLe (leBytes w x ++ rest) 0 w = x % 256 ^ w := by
  simp [readLe, slice, List.take_left' (length_leBytes w x), leValue_leBytes]

theorem leBytes_readLe {mem : List UInt8} {off w : Nat} (h : off + w ≤ mem.length) :
    leBytes w (readLe mem off w) = slice mem off w := by
  have hlen : ((mem.drop off).take w).length = w := by simp; omega
  have := leBytes_leValue ((mem.drop off).take w)
  rwa [hlen] at this

theorem slice_append_slice (l : List UInt8) {a b : Nat} (w v : Nat) (hb : b = a + w) :
    slice l a w ++ slice l b v = slice l a (w + v) := by
  rw [slice, slice, slice, List.take_add, List.drop_drop, hb, Nat.add_comm]

theorem slice_append_slice_append (l : List UInt8) {a b : Nat} (w v : Nat) (hb : b = a + w)
    (rest : List UInt8) : slice l a w ++ (slice l b v ++ rest) = slice l a (w + v) ++ rest := by
  rw [← List.append_assoc, slice_append_slice l w v hb]

@[simp] theorem readLe_leBytes (w x : Nat) : readLe (leBytes w x) 0 w = x % 256 ^ w := by
  simpa using readLe_leBytes_append w x []

/-! ## Writing over an image -/

/-- `mem` with `bs` written from offset `off`; bytes that would land past the end are dropped,
so the image keeps its size. -/
def writeBytes : List UInt8 → Nat → List UInt8 → List UInt8
  | [], _, _ => []
  | m :: ms, 0, [] => m :: ms
  | _ :: ms, 0, b :: bs => b :: writeBytes ms 0 bs
  | m :: ms, off + 1, bs => m :: writeBytes ms off bs

/-- The byte at index `k` after writing `bs` from `off` over the byte `b`. -/
def patchByte (off : Nat) (bs : List UInt8) (k : Nat) (b : UInt8) : UInt8 :=
  if off ≤ k then bs.getD (k - off) b else b

@[simp] theorem patchByte_nil (k : Nat) : patchByte 0 [] k = id := by
  funext b; simp [patchByte]

@[simp] theorem patchByte_cons_succ (c : UInt8) (bs : List UInt8) (k : Nat) :
    patchByte 0 (c :: bs) (k + 1) = patchByte 0 bs k := by
  funext b; simp [patchByte]

@[simp] theorem patchByte_succ_succ (off : Nat) (bs : List UInt8) (k : Nat) :
    patchByte (off + 1) bs (k + 1) = patchByte off bs k := by
  funext b; simp [patchByte]

/-- **Every byte of a written image.** -/
theorem getElem?_writeBytes (mem : List UInt8) (off : Nat) (bs : List UInt8) (k : Nat) :
    (writeBytes mem off bs)[k]? = mem[k]?.map (patchByte off bs k) := by
  induction mem generalizing off bs k with
  | nil => simp [writeBytes]
  | cons m ms ih =>
    match off, bs, k with
    | 0, [], k => simp [writeBytes]
    | 0, b :: bs, 0 => simp [writeBytes, patchByte]
    | 0, b :: bs, k + 1 => simp [writeBytes, patchByte, ih]
    | off + 1, bs, 0 => simp [writeBytes, patchByte]
    | off + 1, bs, k + 1 => simp [writeBytes, patchByte, ih]

@[simp] theorem length_writeBytes (mem : List UInt8) (off : Nat) (bs : List UInt8) :
    (writeBytes mem off bs).length = mem.length := by
  induction mem generalizing off bs with
  | nil => rfl
  | cons m ms ih =>
    match off, bs with
    | 0, [] => rfl
    | 0, b :: bs => simp [writeBytes, ih]
    | off + 1, bs => simp [writeBytes, ih]

theorem getElem?_writeBytes_of_lt {mem : List UInt8} {off k : Nat} (bs : List UInt8)
    (h : k < off) : (writeBytes mem off bs)[k]? = mem[k]? := by
  rw [getElem?_writeBytes]
  cases mem[k]? <;> simp [patchByte, Nat.not_le.mpr h]

theorem getElem?_writeBytes_of_ge {mem : List UInt8} {off k : Nat} {bs : List UInt8}
    (h : off + bs.length ≤ k) : (writeBytes mem off bs)[k]? = mem[k]? := by
  rw [getElem?_writeBytes]
  cases mem[k]? <;> simp [patchByte, List.getD_eq_getElem?_getD, List.getElem?_eq_none (by omega : bs.length ≤ k - off)]

theorem getElem?_writeBytes_of_mem {mem : List UInt8} {off k : Nat} {bs : List UInt8}
    (h₁ : off ≤ k) (h₂ : k < off + bs.length) (hk : k < mem.length) :
    (writeBytes mem off bs)[k]? = bs[k - off]? := by
  rw [getElem?_writeBytes, List.getElem?_eq_getElem hk]
  simp [patchByte, h₁, List.getD_eq_getElem?_getD, List.getElem?_eq_getElem (by omega : k - off < bs.length)]

theorem getElem?_slice (mem : List UInt8) (off w k : Nat) :
    (slice mem off w)[k]? = if k < w then mem[off + k]? else none := by
  simp only [slice, List.getElem?_take, List.getElem?_drop]

/-- **Bytes written inside the image are read back.** -/
theorem slice_writeBytes_self {mem : List UInt8} {off : Nat} {bs : List UInt8}
    (h : off + bs.length ≤ mem.length) : slice (writeBytes mem off bs) off bs.length = bs := by
  apply List.ext_getElem?
  intro k
  rw [getElem?_slice]
  split_ifs with hk
  · rw [getElem?_writeBytes_of_mem (by omega) (by omega) (by omega), Nat.add_sub_cancel_left]
  · exact (List.getElem?_eq_none (by omega)).symm

/-- Two ranges `[a, a + m)` and `[b, b + n)` share no index. -/
def Apart (a m b n : Nat) : Prop := a + m ≤ b ∨ b + n ≤ a

instance (a m b n : Nat) : Decidable (Apart a m b n) := inferInstanceAs (Decidable (_ ∨ _))

theorem Apart.symm {a m b n : Nat} (h : Apart a m b n) : Apart b n a m := Or.symm h

theorem Apart.mono {a m b n a' m' b' n' : Nat} (h : Apart a m b n) (ha : a ≤ a' ∧ a' + m' ≤ a + m)
    (hb : b ≤ b' ∧ b' + n' ≤ b + n) : Apart a' m' b' n' := by
  unfold Apart at *; omega

theorem getElem?_writeBytes_of_apart {mem : List UInt8} {off k : Nat} {bs : List UInt8}
    (h : Apart k 1 off bs.length) : (writeBytes mem off bs)[k]? = mem[k]? := by
  rcases h with h | h
  · exact getElem?_writeBytes_of_lt bs (by omega)
  · exact getElem?_writeBytes_of_ge (by omega)

/-- **A write leaves every range apart from it as it was.** -/
theorem slice_writeBytes_of_apart {mem : List UInt8} {off : Nat} {bs : List UInt8} {a w : Nat}
    (h : Apart a w off bs.length) : slice (writeBytes mem off bs) a w = slice mem a w := by
  apply List.ext_getElem?
  intro k
  rw [getElem?_slice, getElem?_slice]
  split_ifs with hk
  · rcases h with h | h
    · exact getElem?_writeBytes_of_lt bs (by omega)
    · exact getElem?_writeBytes_of_ge (by omega)
  · rfl

theorem patchByte_of_le {off k : Nat} {bs : List UInt8} (h : off + bs.length ≤ k) :
    patchByte off bs k = id := by
  funext b
  simp [patchByte, show off ≤ k by omega, List.getD_eq_getElem?_getD,
    List.getElem?_eq_none (show bs.length ≤ k - off by omega)]

/-- A write inside the front part of an image leaves the rest after it. -/
theorem writeBytes_append_of_le {a : List UInt8} {off : Nat} {bs : List UInt8}
    (h : off + bs.length ≤ a.length) (b : List UInt8) :
    writeBytes (a ++ b) off bs = writeBytes a off bs ++ b := by
  apply List.ext_getElem?
  intro k
  rw [getElem?_writeBytes]
  by_cases hk : k < a.length
  · rw [List.getElem?_append_left hk, List.getElem?_append_left (by simpa using hk), getElem?_writeBytes]
  · rw [List.getElem?_append_right (by omega), List.getElem?_append_right (by simp; omega),
      length_writeBytes, patchByte_of_le (by omega), Option.map_id, id]

/-- Writing two pieces one after the other is writing them together. -/
theorem writeBytes_append (mem : List UInt8) (off : Nat) (xs ys : List UInt8) :
    writeBytes mem off (xs ++ ys) = writeBytes (writeBytes mem off xs) (off + xs.length) ys := by
  apply List.ext_getElem?
  intro k
  simp only [getElem?_writeBytes, Option.map_map]
  congr 1
  funext b
  simp only [patchByte, Function.comp]
  by_cases h₁ : off ≤ k
  · by_cases h₂ : off + xs.length ≤ k
    · simp [h₁, h₂, List.getD_eq_getElem?_getD, List.getElem?_append_right (show xs.length ≤ k - off by omega),
        List.getElem?_eq_none (show xs.length ≤ k - off by omega), Nat.sub_add_eq]
    · simp [h₁, h₂, List.getD_eq_getElem?_getD, List.getElem?_append_left (show k - off < xs.length by omega)]
  · simp [h₁, show ¬ off + xs.length ≤ k by omega]

/-- Writing back the bytes already there changes nothing. -/
theorem writeBytes_slice_self (mem : List UInt8) (off w : Nat) : writeBytes mem off (slice mem off w) = mem := by
  apply List.ext_getElem?
  intro k
  rw [getElem?_writeBytes]
  cases hk : mem[k]? with
  | none => rfl
  | some b =>
    simp only [Option.map_some', patchByte]
    split_ifs with h
    · rw [List.getD_eq_getElem?_getD, getElem?_slice]
      split_ifs with hw
      · rw [Nat.add_sub_cancel' h, hk]; rfl
      · rfl
    · rfl

theorem length_slice {mem : List UInt8} {off w : Nat} (h : off + w ≤ mem.length) :
    (slice mem off w).length = w := by
  simp [slice]; omega

theorem slice_slice (mem : List UInt8) {off w a v : Nat} (h : a + v ≤ w) :
    slice (slice mem off w) a v = slice mem (off + a) v := by
  simp only [slice, List.drop_take, List.take_take, List.drop_drop]
  rw [Nat.min_eq_left (by omega)]

/-- Rewriting a range with its own bytes around a piece `f` is writing `f` alone. -/
theorem writeBytes_between {mem : List UInt8} {base a : Nat} (h : base + a ≤ mem.length) (f : List UInt8)
    (b : Nat) : writeBytes mem base (slice mem base a ++ f ++ slice mem (base + a + f.length) b) =
      writeBytes mem (base + a) f := by
  have hb : slice mem (base + a + f.length) b = slice (writeBytes mem (base + a) f) (base + a + f.length) b :=
    (slice_writeBytes_of_apart (Or.inr (Nat.le_refl _))).symm
  rw [hb, writeBytes_append, writeBytes_append, writeBytes_slice_self, List.length_append, length_slice h,
    ← Nat.add_assoc, writeBytes_slice_self]

theorem slice_append_of_le {a : List UInt8} {off w : Nat} (h : off + w ≤ a.length) (b : List UInt8) :
    slice (a ++ b) off w = slice a off w := by
  simp [slice, List.drop_append_of_le_length (show off ≤ a.length by omega),
    List.take_append_of_le_length (show w ≤ (a.drop off).length by simp; omega)]

theorem slice_append_right (a b : List UInt8) (off w : Nat) : slice (a ++ b) (a.length + off) w = slice b off w := by
  simp [slice, List.drop_append]

theorem readLe_writeBytes_of_apart {mem : List UInt8} {off : Nat} {bs : List UInt8} {a w : Nat}
    (h : Apart a w off bs.length) : readLe (writeBytes mem off bs) a w = readLe mem a w := by
  rw [readLe, readLe, slice_writeBytes_of_apart h]

/-! ## C strings -/

/-- A bound on the size of anything a process holds in memory: the user address space of 64-bit
Linux is below `2 ^ 57` bytes. -/
def addrSpace : Nat := 2 ^ 57

/-- The bytes of the NUL-terminated string at offset `off` of `mem`, without the NUL. -/
def cStringBytes (mem : List UInt8) (off : Nat) : List UInt8 := (mem.drop off).takeWhile (· ≠ 0)

/-- A C string held in memory: its bytes, without the terminating NUL. -/
structure CStr where
  bytes : List UInt8
  no_nul : 0 ∉ bytes
  length_lt : bytes.length < addrSpace

/-- `strlen`. -/
def CStr.len (s : CStr) : Nat := s.bytes.length

/-- The bytes `strcpy` and `write(fd, s, strlen(s) + 1)` put down: the string and its NUL. -/
def CStr.withNul (s : CStr) : List UInt8 := s.bytes ++ [0]

/-- A C string is its bytes. -/
theorem CStr.ext {s s' : CStr} (h : s.bytes = s'.bytes) : s = s' := by
  cases s; cases s'; cases h; rfl

@[simp] theorem CStr.length_withNul (s : CStr) : s.withNul.length = s.len + 1 := by
  simp [CStr.withNul, CStr.len]

theorem not_mem_cStringBytes (mem : List UInt8) (off : Nat) : 0 ∉ cStringBytes mem off := by
  intro h
  simpa using List.mem_takeWhile_imp h

theorem length_cStringBytes_le (mem : List UInt8) (off : Nat) :
    (cStringBytes mem off).length ≤ mem.length :=
  (List.takeWhile_sublist _).length_le.trans (by simp)

/-- The C string at offset `off` of an image held in memory. -/
def cString (mem : List UInt8) (off : Nat) (h : mem.length < addrSpace) : CStr :=
  ⟨cStringBytes mem off, not_mem_cStringBytes mem off,
    (length_cStringBytes_le mem off).trans_lt h⟩

theorem takeWhile_append_nul {bs : List UInt8} (h : 0 ∉ bs) (rest : List UInt8) :
    (bs ++ 0 :: rest).takeWhile (· ≠ 0) = bs := by
  induction bs with
  | nil => simp
  | cons b bs ih =>
    have hb : b ≠ 0 := fun hb => h (hb ▸ List.mem_cons_self _ _)
    rw [List.cons_append, List.takeWhile_cons_of_pos (by simpa using hb),
      ih (fun h' => h (List.mem_cons_of_mem _ h'))]

theorem takeWhile_withNul (s : CStr) (rest : List UInt8) :
    (s.withNul ++ rest).takeWhile (· ≠ 0) = s.bytes := by
  simpa [CStr.withNul] using takeWhile_append_nul s.no_nul rest

/-- **A C string is read back from the bytes `strcpy` or `write` put down.** -/
theorem cStringBytes_withNul (mem : List UInt8) {off : Nat} (s : CStr) (rest : List UInt8)
    (h : mem.drop off = s.withNul ++ rest) : cStringBytes mem off = s.bytes := by
  rw [cStringBytes, h, takeWhile_withNul]

/-- A string whose NUL lies inside the image is followed there by its NUL. -/
theorem slice_cStringBytes {mem : List UInt8} {off : Nat}
    (h : off + ((cStringBytes mem off).length + 1) ≤ mem.length) :
    slice mem off ((cStringBytes mem off).length + 1) = cStringBytes mem off ++ [0] := by
  have hsplit := List.takeWhile_append_dropWhile (fun b : UInt8 => decide (b ≠ 0)) (mem.drop off)
  unfold cStringBytes slice at *
  cases hd : (mem.drop off).dropWhile (fun b => decide (b ≠ 0)) with
  | nil =>
    rw [hd, List.append_nil] at hsplit
    have := congrArg List.length hsplit
    simp only [List.length_drop] at this
    omega
  | cons x rest =>
    have hx := List.head_dropWhile_not (fun b : UInt8 => decide (b ≠ 0)) (mem.drop off)
      (by rw [hd]; exact List.cons_ne_nil _ _)
    simp only [hd, List.head_cons, decide_eq_false_iff_not, not_not] at hx
    generalize (mem.drop off).takeWhile (fun b => decide (b ≠ 0)) = T at *
    rw [← hsplit, hd, hx, List.take_append_eq_append_take]
    simp

theorem cStringBytes_of_slice {mem : List UInt8} {off : Nat} {s : CStr}
    (h : slice mem off (s.len + 1) = s.withNul) : cStringBytes mem off = s.bytes := by
  apply cStringBytes_withNul mem s ((mem.drop off).drop (s.len + 1))
  rw [← h, slice, List.take_append_drop]

end Shiva
