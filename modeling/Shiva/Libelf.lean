import Shiva.Elf

/-!
# The ELF library's view of an image

`shiva-ld` reaches the input executable through libelfmaster, which is not part of the
repository. Its calls are modelled here on the mapped image: the header tables are where the ELF
header says, the iterators decode them entry by entry, and a `modify` call writes an entry back
in place.

* `ElfObj`: an opened object, its path and its mapped image;
* `segments`, `sections`: what the segment and section iterators hand out, with the index
  `phdr_iter.index - 1` of each entry;
* `elfSegmentModify`, `elfSectionModify`, `interpSegment`, `elfDynamic`, `elfReadByte`,
  `ElfObj.interpreterPath`;
* `Libelf`: what the library decides and `src/` does not show (whether a strict open accepts an
  image, and `elf_dtag_count`);
* `segmentAt_writeBytes`, `sectionAt_writeBytes`, `segmentAt_writeBytes_self`: what a write into
  the image changes; `header_append`, `segmentAt_append`: what bytes appended after it do not;
* `interpSegment_congr`: the first `PT_INTERP` stays when no header turns into or out of one;
* `elfReadByte_of_first_load`, `map_elfReadByte_of_first_load`: inside the first `PT_LOAD`,
  `elf_read_address` reads the image at the matching file offset.
-/

namespace Shiva

/-! ## Header tables -/

/-- The fields of the ELF header that locate the two header tables. -/
structure ElfHeader where
  phoff : Nat
  shoff : Nat
  phnum : Nat
  shnum : Nat
deriving DecidableEq, Repr

/-- `e_phoff`, `e_shoff`, `e_phnum` and `e_shnum` of the image. -/
def header (mem : List UInt8) : ElfHeader :=
  ⟨readLe mem 32 8, readLe mem 40 8, readLe mem 56 2, readLe mem 60 2⟩

/-- The file offset of program header `i`. -/
def phdrOffset (mem : List UInt8) (i : Nat) : Nat := (header mem).phoff + phdrSize * i
/-- The file offset of section header `i`. -/
def shdrOffset (mem : List UInt8) (i : Nat) : Nat := (header mem).shoff + shdrSize * i

/-- Program header `i`, decoded from the image. -/
def segmentAt (mem : List UInt8) (i : Nat) : ElfSegment :=
  .decode (slice mem (phdrOffset mem i) phdrSize)

/-- Section header `i`, decoded from the image. -/
def sectionAt (mem : List UInt8) (i : Nat) : ElfSection :=
  .decode (slice mem (shdrOffset mem i) shdrSize)

/-- What `elf_segment_iterator_next` hands out, in order, each with its index. -/
def segments (mem : List UInt8) : List (Nat × ElfSegment) :=
  (List.range (header mem).phnum).map fun i => (i, segmentAt mem i)

/-- What `elf_section_iterator_next` hands out, in order, each with its index. -/
def sections (mem : List UInt8) : List (Nat × ElfSection) :=
  (List.range (header mem).shnum).map fun i => (i, sectionAt mem i)

/-! ## Library calls -/

/-- `elf_segment_modify`: program header `i` rewritten from `seg`; it fails past `e_phnum`. -/
def elfSegmentModify (mem : List UInt8) (i : Nat) (seg : ElfSegment) : Option (List UInt8) :=
  if i < (header mem).phnum then some (writeBytes mem (phdrOffset mem i) seg.encode) else none

/-- `elf_section_modify`: section header `i` rewritten from `sec`; it fails past `e_shnum`. -/
def elfSectionModify (mem : List UInt8) (i : Nat) (sec : ElfSection) : Option (List UInt8) :=
  if i < (header mem).shnum then some (writeBytes mem (shdrOffset mem i) sec.encode) else none

theorem elfSegmentModify_eq_some {mem m : List UInt8} {i : Nat} {seg : ElfSegment}
    (h : elfSegmentModify mem i seg = some m) :
    i < (header mem).phnum ∧ m = writeBytes mem (phdrOffset mem i) seg.encode := by
  unfold elfSegmentModify at h
  split_ifs at h with hi
  exact ⟨hi, (Option.some.inj h).symm⟩

theorem elfSectionModify_eq_some {mem m : List UInt8} {i : Nat} {sec : ElfSection}
    (h : elfSectionModify mem i sec = some m) :
    i < (header mem).shnum ∧ m = writeBytes mem (shdrOffset mem i) sec.encode := by
  unfold elfSectionModify at h
  split_ifs at h with hi
  exact ⟨hi, (Option.some.inj h).symm⟩

theorem mem_sections {mem : List UInt8} {x : Nat × ElfSection} :
    x ∈ sections mem ↔ x.1 < (header mem).shnum ∧ x.2 = sectionAt mem x.1 := by
  obtain ⟨i, sec⟩ := x
  simp only [sections, List.mem_map, List.mem_range, Prod.mk.injEq]
  constructor
  · rintro ⟨j, hj, rfl, rfl⟩; exact ⟨hj, rfl⟩
  · rintro ⟨hi, rfl⟩; exact ⟨i, hi, rfl, rfl⟩

/-- The first `PT_INTERP` program header. -/
def interpSegment (mem : List UInt8) : Option ElfSegment :=
  ((segments mem).find? (·.2.type = ptInterp)).map (·.2)

/-- `elf_flags(obj, ELF_DYNAMIC_F)`: the object has a `PT_DYNAMIC` segment. -/
def elfDynamic (mem : List UInt8) : Bool := (segments mem).any (·.2.type = ptDynamic)

/-- The byte `elf_read_address` finds at virtual address `a`: through the first `PT_LOAD` whose
file-backed range holds `a`. -/
def elfReadByte (mem : List UInt8) (a : Nat) : Option UInt8 :=
  match (segments mem).find? fun p => p.2.type = ptLoad ∧ p.2.vaddr ≤ a ∧ a < p.2.vaddr + p.2.filesz with
  | some (_, p) => mem[p.offset + (a - p.vaddr)]?
  | none => none

/-- An ELF object as `elf_open_object` leaves it: the path it was opened from and the mapped
image. -/
structure ElfObj where
  path : String
  mem : List UInt8
  size_lt : mem.length < addrSpace

/-- `elf_interpreter_path`: the string the first `PT_INTERP` points at, or `NULL`. -/
def ElfObj.interpreterPath (obj : ElfObj) : Option CStr :=
  (interpSegment obj.mem).map fun p => cString obj.mem p.offset obj.size_lt

/-- What libelfmaster decides that `src/` does not show: whether `elf_open_object` with
`ELF_LOAD_F_STRICT` accepts an image, and the count `elf_dtag_count` returns for it. -/
structure Libelf where
  strictOk : List UInt8 → Bool
  dtagCount : List UInt8 → Nat

/-! ## What a write changes -/

section Writes

variable {mem : List UInt8} {off : Nat} {bs : List UInt8}

/-- A write that keeps off the table-locating fields of the ELF header. -/
def OffHeader (off len : Nat) : Prop := off + len ≤ 32 ∨ 64 ≤ off

theorem header_writeBytes (h : OffHeader off bs.length) : header (writeBytes mem off bs) = header mem := by
  simp only [header, ElfHeader.mk.injEq]
  refine ⟨?_, ?_, ?_, ?_⟩ <;> exact readLe_writeBytes_of_apart (by unfold OffHeader at h; unfold Apart; omega)

theorem phdrOffset_writeBytes (h : OffHeader off bs.length) (j : Nat) :
    phdrOffset (writeBytes mem off bs) j = phdrOffset mem j := by
  rw [phdrOffset, phdrOffset, header_writeBytes h]

theorem shdrOffset_writeBytes (h : OffHeader off bs.length) (j : Nat) :
    shdrOffset (writeBytes mem off bs) j = shdrOffset mem j := by
  rw [shdrOffset, shdrOffset, header_writeBytes h]

theorem segmentAt_writeBytes (h : OffHeader off bs.length) {j : Nat}
    (hj : Apart (phdrOffset mem j) phdrSize off bs.length) :
    segmentAt (writeBytes mem off bs) j = segmentAt mem j := by
  rw [segmentAt, segmentAt, phdrOffset_writeBytes h, slice_writeBytes_of_apart hj]

theorem sectionAt_writeBytes (h : OffHeader off bs.length) {j : Nat}
    (hj : Apart (shdrOffset mem j) shdrSize off bs.length) :
    sectionAt (writeBytes mem off bs) j = sectionAt mem j := by
  rw [sectionAt, sectionAt, shdrOffset_writeBytes h, slice_writeBytes_of_apart hj]

/-- Program header `j`, rewritten in place, reads back as written. -/
theorem segmentAt_writeBytes_self {seg : ElfSegment} (hs : seg.Fits) {j : Nat}
    (h : OffHeader (phdrOffset mem j) phdrSize) (hin : phdrOffset mem j + phdrSize ≤ mem.length) :
    segmentAt (writeBytes mem (phdrOffset mem j) seg.encode) j = seg := by
  rw [segmentAt, phdrOffset_writeBytes (by simpa using h), ← seg.length_encode,
    slice_writeBytes_self (by simpa using hin), seg.decode_encode hs]

end Writes

/-! ## Bytes after the image -/

section Append

variable {mem : List UInt8}

theorem header_append (h : 64 ≤ mem.length) (rest : List UInt8) : header (mem ++ rest) = header mem := by
  simp (disch := omega) only [header, readLe, slice_append_of_le]

theorem segmentAt_append (h : 64 ≤ mem.length) {j : Nat} (hj : phdrOffset mem j + phdrSize ≤ mem.length)
    (rest : List UInt8) : segmentAt (mem ++ rest) j = segmentAt mem j := by
  rw [segmentAt, segmentAt, phdrOffset, header_append h, ← phdrOffset, slice_append_of_le hj]

theorem sectionAt_append (h : 64 ≤ mem.length) {j : Nat} (hj : shdrOffset mem j + shdrSize ≤ mem.length)
    (rest : List UInt8) : sectionAt (mem ++ rest) j = sectionAt mem j := by
  rw [sectionAt, sectionAt, shdrOffset, header_append h, ← shdrOffset, slice_append_of_le hj]

end Append

/-! ## The first header of a kind -/

theorem find?_map_congr {α : Type} {P : α → Bool} {f g : Nat → α} :
    ∀ {l : List Nat}, (∀ j ∈ l, f j = g j ∨ (P (f j) = false ∧ P (g j) = false)) →
      ((l.map fun j => (j, f j)).find? (P ·.2)) = ((l.map fun j => (j, g j)).find? (P ·.2))
  | [], _ => rfl
  | j :: l, h => by
    simp only [List.map_cons, List.find?_cons]
    rw [find?_map_congr fun i hi => h i (List.mem_cons_of_mem _ hi)]
    rcases h j (List.mem_cons_self _ _) with hj | ⟨hf, hg⟩
    · rw [hj]
    · rw [hf, hg]

/-- The first `PT_INTERP` of two images with the same headers, but for headers of other kinds. -/
theorem interpSegment_congr {m m' : List UInt8} (hn : (header m').phnum = (header m).phnum)
    (h : ∀ j < (header m).phnum, segmentAt m' j = segmentAt m j ∨
      ((segmentAt m' j).type ≠ ptInterp ∧ (segmentAt m j).type ≠ ptInterp)) :
    interpSegment m' = interpSegment m := by
  unfold interpSegment segments
  rw [hn]
  congr 1
  exact find?_map_congr (P := fun s : ElfSegment => decide (s.type = ptInterp)) fun j hj => by
    simpa using h j (List.mem_range.mp hj)

end Shiva
