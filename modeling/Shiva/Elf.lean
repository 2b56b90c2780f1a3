import Shiva.Bytes
import Mathlib.Data.Nat.Bitwise

/-!
# ELF64 records

The parts of the ELF64 format that `shiva-ld` reads and writes, in the little-endian layout of
the x86-64 and AArch64 targets Shiva runs on.

* `ElfSegment` (a program header, `struct elf_segment`), `ElfSection` (a section header,
  `struct elf_section`) and `ElfDyn` (a dynamic entry, `ElfW(Dyn)`), each with its encoding and
  `decode_encode`; `ElfSection.encode_decode` for a header read out of an image;
* the constants of `<elf.h>` and of `shiva-ld.c` that the prelinker uses;
* `elfPageAlign`, the `ELF_PAGEALIGN` macro on 64-bit values, and **`elfPageAlign_minAlign`**:
  with the alignment `4096` it rounds up to a page, modulo `2 ^ 64`.
-/

namespace Shiva

/-! ## Constants -/

/-- `PT_LOAD`. -/
def ptLoad : Nat := 1
/-- `PT_DYNAMIC`. -/
def ptDynamic : Nat := 2
/-- `PT_INTERP`. -/
def ptInterp : Nat := 3
/-- `PT_NOTE`. -/
def ptNote : Nat := 4
/-- `PF_X`. -/
def pfX : Nat := 1
/-- `PF_W`. -/
def pfW : Nat := 2
/-- `PF_R`. -/
def pfR : Nat := 4
/-- `SHT_DYNAMIC`. -/
def shtDynamic : Nat := 6
/-- `DT_NULL`. -/
def dtNull : Nat := 0
/-- `DT_LOOS`. -/
def dtLoos : Nat := 0x6000000d
/-- `SHIVA_DT_NEEDED`: the address of the patch basename. -/
def shivaDtNeeded : Nat := dtLoos + 10
/-- `SHIVA_DT_SEARCH`: the address of the module search path. -/
def shivaDtSearch : Nat := dtLoos + 11
/-- `SHIVA_DT_ORIG_INTERP`: the address of the original interpreter path. -/
def shivaDtOrigInterp : Nat := dtLoos + 12
/-- `SHIVA_SIGNATURE`, written into the identification padding. -/
def shivaSignature : Nat := 0x31f64
/-- `EI_PAD`, the first padding byte of `e_ident`. -/
def eiPad : Nat := 9
/-- `ELF_MIN_ALIGN`. -/
def elfMinAlign : Nat := 4096
/-- `NEW_DYN_COUNT`: the dynamic entries `shiva-ld` adds before the terminator. -/
def newDynCount : Nat := 3
/-- `sizeof(ElfW(Dyn))`. -/
def dynEntSize : Nat := 16
/-- `sizeof(ElfW(Phdr))`. -/
def phdrSize : Nat := 56
/-- `sizeof(ElfW(Shdr))`. -/
def shdrSize : Nat := 64

/-- Values of a 64-bit unsigned type. -/
def u64 : Nat := 2 ^ 64

/-! ## `ELF_PAGEALIGN` -/

/-- `ELF_PAGEALIGN(v, a)`, that is `((v) + a - 1) & ~(a - 1)`, on `unsigned long`. -/
def elfPageAlign (v a : Nat) : Nat :=
  (v + a + (u64 - 1)) % u64 &&& (u64 - 1 - (a + (u64 - 1)) % u64)

theorem land_pageMask {x : Nat} (hx : x < u64) : x &&& (u64 - 4096) = x / 4096 * 4096 := by
  apply Nat.eq_of_testBit_eq
  intro j
  have h₁ : u64 - 4096 = 2 ^ 12 * (2 ^ 52 - 1) := by decide
  have h₂ : x / 4096 * 4096 = 2 ^ 12 * (x >>> 12) := by rw [Nat.shiftRight_eq_div_pow]; omega
  rw [h₁, h₂, Nat.testBit_land, Nat.testBit_mul_pow_two, Nat.testBit_mul_pow_two,
    Nat.testBit_two_pow_sub_one, Nat.testBit_shiftRight]
  by_cases hj : 12 ≤ j
  · have hj' : 12 + (j - 12) = j := by omega
    by_cases hj64 : j < 64
    · simp [hj, hj']
      omega
    · have : x.testBit j = false :=
        Nat.testBit_eq_false_of_lt (lt_of_lt_of_le hx (Nat.pow_le_pow_right (by decide) (by omega)))
      simp [hj, hj', this]
  · simp [hj]

/-- **`ELF_PAGEALIGN(v, 4096)` rounds `v` up to a page, modulo `2 ^ 64`.** -/
theorem elfPageAlign_minAlign (v : Nat) : elfPageAlign v 4096 = (v + 4095) % u64 / 4096 * 4096 := by
  have h : (v + 4096 + (u64 - 1)) % u64 = (v + 4095) % u64 := by
    rw [show v + 4096 + (u64 - 1) = v + 4095 + u64 by unfold u64; omega, Nat.add_mod_right]
  rw [elfPageAlign, h, show u64 - 1 - (4096 + (u64 - 1)) % u64 = u64 - 4096 by decide]
  exact land_pageMask (Nat.mod_lt _ (by decide))

theorem elfPageAlign_dvd (v : Nat) : 4096 ∣ elfPageAlign v 4096 := by
  rw [elfPageAlign_minAlign]
  exact Nat.dvd_mul_left _ _

theorem le_elfPageAlign {v : Nat} (hv : v + 4096 ≤ u64) : v ≤ elfPageAlign v 4096 ∧
    elfPageAlign v 4096 < v + 4096 := by
  rw [elfPageAlign_minAlign, Nat.mod_eq_of_lt (by omega)]
  omega

/-- `ELF_PAGEALIGN` gives a 64-bit value, whatever the alignment. -/
theorem elfPageAlign_lt (v a : Nat) : elfPageAlign v a < u64 := by
  unfold elfPageAlign
  rw [Nat.land_comm]
  exact Nat.and_lt_two_pow _ (Nat.mod_lt _ (by decide))

/-! ## Program headers -/

/-- A program header as the ELF library hands it out and takes it back (`struct elf_segment`),
laid out as an `Elf64_Phdr`. -/
structure ElfSegment where
  type : Nat
  flags : Nat
  offset : Nat
  vaddr : Nat
  paddr : Nat
  filesz : Nat
  memsz : Nat
  align : Nat
deriving DecidableEq, Repr

/-- The 56 bytes of an `Elf64_Phdr`. -/
def ElfSegment.encode (s : ElfSegment) : List UInt8 :=
  leBytes 4 s.type ++ leBytes 4 s.flags ++ leBytes 8 s.offset ++ leBytes 8 s.vaddr ++
    leBytes 8 s.paddr ++ leBytes 8 s.filesz ++ leBytes 8 s.memsz ++ leBytes 8 s.align

/-- The program header held by the bytes `bs`. -/
def ElfSegment.decode (bs : List UInt8) : ElfSegment where
  type := readLe bs 0 4
  flags := readLe bs 4 4
  offset := readLe bs 8 8
  vaddr := readLe bs 16 8
  paddr := readLe bs 24 8
  filesz := readLe bs 32 8
  memsz := readLe bs 40 8
  align := readLe bs 48 8

/-- Every field of `s` fits the width the header gives it. -/
def ElfSegment.Fits (s : ElfSegment) : Prop :=
  s.type < 2 ^ 32 ∧ s.flags < 2 ^ 32 ∧ s.offset < u64 ∧ s.vaddr < u64 ∧ s.paddr < u64 ∧
    s.filesz < u64 ∧ s.memsz < u64 ∧ s.align < u64

@[simp] theorem ElfSegment.length_encode (s : ElfSegment) : s.encode.length = phdrSize := by
  simp [ElfSegment.encode, phdrSize]

theorem ElfSegment.decode_encode {s : ElfSegment} (h : s.Fits) : decode s.encode = s := by
  obtain ⟨h₁, h₂, h₃, h₄, h₅, h₆, h₇, h₈⟩ := h
  simp only [u64, Nat.reducePow] at *
  simp [decode, encode, List.append_assoc, readLe_append_of_le, Nat.mod_eq_of_lt, *]

/-! ## Section headers -/

/-- A section header as the ELF library hands it out and takes it back (`struct elf_section`),
laid out as an `Elf64_Shdr`. -/
structure ElfSection where
  name : Nat
  type : Nat
  flags : Nat
  address : Nat
  offset : Nat
  size : Nat
  link : Nat
  info : Nat
  align : Nat
  entsize : Nat
deriving DecidableEq, Repr

/-- The 64 bytes of an `Elf64_Shdr`. -/
def ElfSection.encode (s : ElfSection) : List UInt8 :=
  leBytes 4 s.name ++ leBytes 4 s.type ++ leBytes 8 s.flags ++ leBytes 8 s.address ++
    leBytes 8 s.offset ++ leBytes 8 s.size ++ leBytes 4 s.link ++ leBytes 4 s.info ++
    leBytes 8 s.align ++ leBytes 8 s.entsize

/-- The section header held by the bytes `bs`. -/
def ElfSection.decode (bs : List UInt8) : ElfSection where
  name := readLe bs 0 4
  type := readLe bs 4 4
  flags := readLe bs 8 8
  address := readLe bs 16 8
  offset := readLe bs 24 8
  size := readLe bs 32 8
  link := readLe bs 40 4
  info := readLe bs 44 4
  align := readLe bs 48 8
  entsize := readLe bs 56 8

@[simp] theorem ElfSection.length_encode (s : ElfSection) : s.encode.length = shdrSize := by
  simp [ElfSection.encode, shdrSize]

/-- A section header read out of 64 bytes and written back gives the same bytes. -/
theorem ElfSection.encode_decode {bs : List UInt8} (h : bs.length = shdrSize) :
    (decode bs).encode = bs := by
  simp only [shdrSize] at h
  simp (disch := omega) only [decode, encode, List.append_assoc, leBytes_readLe,
    slice_append_slice, Nat.reduceAdd]
  simp [slice, h]

/-- A section header read out of 64 bytes and written back with a new address, offset and size
differs from those bytes in these three fields only. -/
theorem ElfSection.encode_setAddress {bs : List UInt8} (h : bs.length = shdrSize) (a o z : Nat) :
    ({ decode bs with address := a, offset := o, size := z } : ElfSection).encode =
      slice bs 0 16 ++ (leBytes 8 a ++ leBytes 8 o ++ leBytes 8 z) ++ slice bs 40 24 := by
  simp only [shdrSize] at h
  simp (disch := omega) only [decode, encode, List.append_assoc, leBytes_readLe,
    slice_append_slice, slice_append_slice_append, Nat.reduceAdd]

/-! ## Dynamic entries -/

/-- A dynamic entry, `ElfW(Dyn)`: its tag and its value (`d_un`). -/
structure ElfDyn where
  tag : Nat
  val : Nat
deriving DecidableEq, Repr

/-- The 16 bytes of an `Elf64_Dyn`. -/
def ElfDyn.encode (d : ElfDyn) : List UInt8 := leBytes 8 d.tag ++ leBytes 8 d.val

/-- The dynamic entry held by the bytes `bs`. -/
def ElfDyn.decode (bs : List UInt8) : ElfDyn := ⟨readLe bs 0 8, readLe bs 8 8⟩

@[simp] theorem ElfDyn.length_encode (d : ElfDyn) : d.encode.length = dynEntSize := by
  simp [ElfDyn.encode, dynEntSize]

/-- A dynamic entry read out of 16 bytes and written back gives the same bytes. -/
theorem ElfDyn.encode_decode {bs : List UInt8} (h : bs.length = dynEntSize) : (decode bs).encode = bs := by
  simp only [dynEntSize] at h
  simp (disch := omega) only [decode, encode, leBytes_readLe, slice_append_slice]
  simp [slice, h]

theorem ElfDyn.decode_encode {d : ElfDyn} (h : d.tag < u64 ∧ d.val < u64) : decode d.encode = d := by
  obtain ⟨h₁, h₂⟩ := h
  simp only [u64, Nat.reducePow] at *
  simp [decode, encode, readLe_append_of_le, Nat.mod_eq_of_lt, *]

end Shiva
