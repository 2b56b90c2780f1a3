import Shiva.Output
import Shiva.Rewrite

/-!
# Well-laid-out images and the header rewrite

The ELF format keeps the ELF header, the two header tables and the `PT_INTERP` string apart, and
inside the file. On an image laid out so, each write of the header rewrite reaches only the
header it aims at, and the rewrite is three plain writes at the offsets of the input's tables.

* `InterpLaid`, `Laid`, with the bounds `Laid.phdr_in`, `Laid.shdr_in` and the separations
  `phdrOffset_apart`, `Laid.phdr_shdr_apart`;
* `headerWrites`, `sectionFields`, `rewriteWrites`: the three writes;
* `header_rewriteWrites`, `getElem?_rewriteWrites`, `segmentAt_rewriteWrites`,
  `sectionAt_rewriteWrites`, `interpSegment_rewriteWrites`, `slice_rewriteWrites`: what they change;
* **`prelinkRewrite_image`**: a successful rewrite of a well-laid-out image is those three writes.
-/

namespace Shiva

/-! ## Layout -/

/-- The string at `p.offset`, with its NUL, lies inside the image, past the ELF header and apart
from the program headers and from the section headers, if there are any. -/
def InterpLaid (mem : List UInt8) (p : ElfSegment) : Prop :=
  64 ≤ p.offset ∧ p.offset + ((cStringBytes mem p.offset).length + 1) ≤ mem.length ∧
    Apart p.offset ((cStringBytes mem p.offset).length + 1)
      (header mem).phoff (phdrSize * (header mem).phnum) ∧
    (0 < (header mem).shnum → Apart p.offset ((cStringBytes mem p.offset).length + 1)
      (header mem).shoff (shdrSize * (header mem).shnum))

/-- An image laid out as the ELF format asks: the program header table lies inside it, past the
ELF header, and so does the section header table when `e_shnum` is not `0`, apart from the
program headers; so does the first `PT_INTERP` string. -/
structure Laid (mem : List UInt8) : Prop where
  phdrs : 64 ≤ (header mem).phoff ∧ (header mem).phoff + phdrSize * (header mem).phnum ≤ mem.length
  shdrs : 0 < (header mem).shnum →
    64 ≤ (header mem).shoff ∧ (header mem).shoff + shdrSize * (header mem).shnum ≤ mem.length
  apart : 0 < (header mem).shnum → Apart (header mem).phoff (phdrSize * (header mem).phnum)
    (header mem).shoff (shdrSize * (header mem).shnum)
  interp : ∀ p, interpSegment mem = some p → InterpLaid mem p

theorem phdrOffset_apart (mem : List UInt8) {i j : Nat} (hij : i ≠ j) :
    Apart (phdrOffset mem i) phdrSize (phdrOffset mem j) phdrSize := by
  unfold Apart phdrOffset phdrSize
  omega

section Laid

variable {mem : List UInt8} (hl : Laid mem)
include hl

theorem Laid.phdr_in {j : Nat} (hj : j < (header mem).phnum) :
    64 ≤ phdrOffset mem j ∧ phdrOffset mem j + phdrSize ≤ mem.length := by
  have := hl.phdrs
  unfold phdrOffset phdrSize at *
  constructor <;> omega

theorem Laid.shdr_in {j : Nat} (hj : j < (header mem).shnum) :
    64 ≤ shdrOffset mem j ∧ shdrOffset mem j + shdrSize ≤ mem.length := by
  have := hl.shdrs (by omega)
  unfold shdrOffset shdrSize at *
  constructor <;> omega

theorem Laid.phdr_shdr_apart {i j : Nat} (hi : i < (header mem).phnum) (hj : j < (header mem).shnum) :
    Apart (phdrOffset mem i) phdrSize (shdrOffset mem j) shdrSize := by
  have := hl.apart (by omega)
  unfold Apart phdrOffset shdrOffset phdrSize shdrSize at *
  omega

end Laid

/-! ## The three writes of the header rewrite -/

/-- Program headers `t` and `d` of `mem` rewritten as `n` and `dyn`. -/
def headerWrites (mem : List UInt8) (t d : Nat) (n dyn : ElfSegment) : List UInt8 :=
  writeBytes (writeBytes mem (phdrOffset mem t) n.encode) (phdrOffset mem d) dyn.encode

/-- The address, offset and size fields of the `.dynamic` section header as the update sets them. -/
def sectionFields (ns : NewSegment) : List UInt8 :=
  leBytes 8 ns.vaddr ++ leBytes 8 ns.offset ++ leBytes 8 ns.dynSize

/-- The header rewrite as three writes at the offsets of `mem`'s tables: program headers `t` and
`d`, then the address fields of section header `s`, when there is one. -/
def rewriteWrites (mem : List UInt8) (t d : Nat) (n dyn : ElfSegment) (ns : NewSegment) :
    Option Nat → List UInt8
  | some s => writeBytes (headerWrites mem t d n dyn) (shdrOffset mem s + 16) (sectionFields ns)
  | none => headerWrites mem t d n dyn

@[simp] theorem length_sectionFields (ns : NewSegment) : (sectionFields ns).length = 24 := by
  simp [sectionFields]

section Writes

variable {mem : List UInt8} {t d : Nat} {n dyn : ElfSegment} {ns : NewSegment} {sec : Option Nat}

@[simp] theorem length_rewriteWrites : (rewriteWrites mem t d n dyn ns sec).length = mem.length := by
  cases sec <;> simp [rewriteWrites, headerWrites]

/-- **The three writes leave every range apart from them as it was.** -/
theorem slice_rewriteWrites {a w : Nat} (hat : Apart a w (phdrOffset mem t) phdrSize)
    (had : Apart a w (phdrOffset mem d) phdrSize) (has : ∀ s ∈ sec, Apart a w (shdrOffset mem s + 16) 24) :
    slice (rewriteWrites mem t d n dyn ns sec) a w = slice mem a w := by
  have hh : slice (headerWrites mem t d n dyn) a w = slice mem a w := by
    rw [headerWrites, slice_writeBytes_of_apart (by simpa using had),
      slice_writeBytes_of_apart (by simpa using hat)]
  cases sec with
  | none => exact hh
  | some s => rw [rewriteWrites, slice_writeBytes_of_apart (by simpa using has s rfl), hh]

theorem getElem?_rewriteWrites {k : Nat} (hkt : Apart k 1 (phdrOffset mem t) phdrSize)
    (hkd : Apart k 1 (phdrOffset mem d) phdrSize) (hks : ∀ s ∈ sec, Apart k 1 (shdrOffset mem s + 16) 24) :
    (rewriteWrites mem t d n dyn ns sec)[k]? = mem[k]? := by
  have h : slice (rewriteWrites mem t d n dyn ns sec) k 1 = slice mem k 1 := slice_rewriteWrites hkt hkd hks
  have h₀ := congrArg (·[0]?) h
  simpa [getElem?_slice] using h₀

variable (hl : Laid mem) (ht : t < (header mem).phnum) (hd : d < (header mem).phnum)
  (hs : ∀ s ∈ sec, s < (header mem).shnum)
include hl ht hd hs

theorem header_rewriteWrites : header (rewriteWrites mem t d n dyn ns sec) = header mem := by
  have h₁ := (hl.phdr_in ht).1
  have h₂ := (hl.phdr_in hd).1
  have hh : header (headerWrites mem t d n dyn) = header mem := by
    rw [headerWrites, header_writeBytes (Or.inr h₂), header_writeBytes (Or.inr h₁)]
  cases sec with
  | none => exact hh
  | some s =>
    have h₃ := (hl.shdr_in (hs s rfl)).1
    rw [rewriteWrites, header_writeBytes (Or.inr (by omega)), hh]

/-- The image the writes leave is read through the input's own tables. -/
theorem segmentAt_rewriteWrites_eq (j : Nat) :
    segmentAt (rewriteWrites mem t d n dyn ns sec) j =
      .decode (slice (rewriteWrites mem t d n dyn ns sec) (phdrOffset mem j) phdrSize) := by
  rw [segmentAt, phdrOffset, header_rewriteWrites hl ht hd hs, ← phdrOffset]

/-- **Program headers after the writes**: `d` holds `dyn`, `t` holds `n`, the others are as they
were. -/
theorem segmentAt_rewriteWrites (hdt : d ≠ t) (hn : n.Fits) (hdyn : dyn.Fits) {j : Nat}
    (hj : j < (header mem).phnum) :
    segmentAt (rewriteWrites mem t d n dyn ns sec) j =
      if j = d then dyn else if j = t then n else segmentAt mem j := by
  have hsec : slice (rewriteWrites mem t d n dyn ns sec) (phdrOffset mem j) phdrSize =
      slice (headerWrites mem t d n dyn) (phdrOffset mem j) phdrSize := by
    cases sec with
    | none => rfl
    | some s =>
      exact slice_writeBytes_of_apart ((hl.phdr_shdr_apart hj (hs s rfl)).mono
        ⟨le_refl _, le_refl _⟩ ⟨by omega, by simp [shdrSize]⟩)
  have hin := (hl.phdr_in hj).2
  rw [segmentAt_rewriteWrites_eq hl ht hd hs, hsec, headerWrites]
  split_ifs with h₁ h₂
  · subst h₁
    rw [← dyn.length_encode, slice_writeBytes_self (by simpa using hin), dyn.decode_encode hdyn]
  · subst h₂
    rw [slice_writeBytes_of_apart (by simpa using phdrOffset_apart mem h₁), ← n.length_encode,
      slice_writeBytes_self (by simpa using hin), n.decode_encode hn]
  · rw [slice_writeBytes_of_apart (by simpa using phdrOffset_apart mem h₁),
      slice_writeBytes_of_apart (by simpa using phdrOffset_apart mem h₂)]
    rfl

/-- Section headers after the writes: all but the `.dynamic` one are as they were. -/
theorem sectionAt_rewriteWrites {j : Nat} (hj : j < (header mem).shnum) (hjs : j ∉ sec) :
    sectionAt (rewriteWrites mem t d n dyn ns sec) j = sectionAt mem j := by
  rw [sectionAt, shdrOffset, header_rewriteWrites hl ht hd hs, ← shdrOffset, sectionAt]
  congr 1
  apply slice_rewriteWrites
  · exact (hl.phdr_shdr_apart ht hj).symm
  · exact (hl.phdr_shdr_apart hd hj).symm
  · intro s hs'
    have hne : j ≠ s := fun h => hjs (h ▸ hs')
    unfold Apart shdrOffset shdrSize
    omega

/-- The first `PT_INTERP` is the input's: no header of that kind is written or overwritten. -/
theorem interpSegment_rewriteWrites (hdt : d ≠ t) (hn : n.Fits) (hdyn : dyn.Fits)
    (hnt : n.type ≠ ptInterp) (hdynt : dyn.type ≠ ptInterp) (hmt : (segmentAt mem t).type ≠ ptInterp)
    (hmd : (segmentAt mem d).type ≠ ptInterp) :
    interpSegment (rewriteWrites mem t d n dyn ns sec) = interpSegment mem := by
  apply interpSegment_congr (by rw [header_rewriteWrites hl ht hd hs])
  intro j hj
  rw [segmentAt_rewriteWrites hl ht hd hs hdt hn hdyn hj]
  split_ifs with h₁ h₂
  · subst h₁; exact .inr ⟨hdynt, hmd⟩
  · subst h₂; exact .inr ⟨hnt, hmt⟩
  · exact .inl rfl

end Writes

/-! ## The rewrite of a well-laid-out image -/

section Rewrite

variable {lib : Libelf} {sys : Sys} {ctx : PrelinkCtx} {obj : ElfObj}

theorem sections_rewriteWrites {mem : List UInt8} {t d : Nat} {n dyn : ElfSegment} {ns : NewSegment}
    (hl : Laid mem) (ht : t < (header mem).phnum) (hd : d < (header mem).phnum) :
    sections (rewriteWrites mem t d n dyn ns none) = sections mem := by
  have hs : ∀ s ∈ (none : Option Nat), s < (header mem).shnum := by simp
  unfold sections
  rw [header_rewriteWrites hl ht hd hs]
  refine List.map_congr_left fun j hj => ?_
  rw [sectionAt_rewriteWrites hl ht hd hs (List.mem_range.mp hj) (by simp)]

/-- **A successful rewrite of a well-laid-out image is the three writes**: the first `PT_NOTE`
`t` becomes `n_segment`, the last `PT_DYNAMIC` `d` before it becomes `dyn_segment`, and the
`.dynamic` section header, if any, gets the new address, offset and size. -/
theorem prelinkRewrite_image {rw : Rewrite} (h : prelinkRewrite lib sys ctx obj = some rw)
    (hl : Laid obj.mem) :
    ∃ t d, noteSlot obj.mem = some t ∧
      lastOfType ptDynamic (beforeNote obj.mem) = some (d, segmentAt obj.mem d) ∧ d < t ∧
      dynCopy lib sys ctx obj rw.orig d (segmentAt obj.mem d) = some rw.copy ∧
      rw.newSegment = newSegmentOf obj (lastLoadOf (Scan.init sys).lastLoad (beforeNote obj.mem)) rw.copy ∧
      rw.mem = rewriteWrites obj.mem t d
        (nSegment obj (lastLoadOf (Scan.init sys).lastLoad (beforeNote obj.mem)) rw.copy)
        (dynSegment rw.newSegment) rw.newSegment ((dynamicSection obj.mem).map (·.1)) := by
  obtain ⟨-, t, d, D, mem₁, mem₂, ht, hD, hc, hns, h₁, h₂, h₃⟩ := prelinkRewrite_spec h
  have htn := (noteSlot_spec ht).1
  obtain ⟨hDmem, -⟩ := lastOfType_mem hD
  rw [beforeNote_eq ht, List.mem_map] at hDmem
  obtain ⟨j, hj, hjd⟩ := hDmem
  cases hjd
  have hdt := List.mem_range.mp hj
  have hdn : d < (header obj.mem).phnum := by omega
  obtain ⟨-, rfl⟩ := elfSegmentModify_eq_some h₁
  obtain ⟨-, rfl⟩ := elfSegmentModify_eq_some h₂
  rw [phdrOffset_writeBytes (Or.inr (by simpa using (hl.phdr_in htn).1))] at h₃
  refine ⟨t, d, ht, hD, hdt, hc, hns, ?_⟩
  change updateDynamicSection (rewriteWrites obj.mem t d _ _ rw.newSegment none) rw.newSegment = _ at h₃
  unfold updateDynamicSection dynamicSection at h₃
  rw [sections_rewriteWrites hl htn hdn] at h₃
  unfold dynamicSection
  split at h₃
  · next s sec hsec =>
    have hsm := mem_sections.mp (List.mem_of_find?_eq_some hsec)
    dsimp only at hsm
    obtain ⟨hsn, rfl⟩ := hsm
    obtain ⟨-, hrw⟩ := elfSectionModify_eq_some h₃
    rw [hrw, hsec, Option.map_some']
    have hin := hl.shdr_in hsn
    have hnone : ∀ x ∈ (none : Option Nat), x < (header obj.mem).shnum := by simp
    have hap : ∀ {a w}, shdrOffset obj.mem s ≤ a → a + w ≤ shdrOffset obj.mem s + shdrSize →
        slice (rewriteWrites obj.mem t d (nSegment obj (lastLoadOf (Scan.init sys).lastLoad
          (beforeNote obj.mem)) rw.copy) (dynSegment rw.newSegment) rw.newSegment none) a w =
          slice obj.mem a w := fun h₁ h₂ =>
      slice_rewriteWrites ((hl.phdr_shdr_apart htn hsn).symm.mono ⟨h₁, h₂⟩ ⟨le_refl _, le_refl _⟩)
        ((hl.phdr_shdr_apart hdn hsn).symm.mono ⟨h₁, h₂⟩ ⟨le_refl _, le_refl _⟩) (by simp)
    rw [shdrOffset, header_rewriteWrites hl htn hdn hnone, ← shdrOffset, sectionAt,
      ElfSection.encode_setAddress (length_slice hin.2), slice_slice _ (by decide),
      slice_slice _ (by decide), Nat.add_zero, ← hap (le_refl _) (by simp [shdrSize]),
      show shdrOffset obj.mem s + 40 = shdrOffset obj.mem s + 16 + (sectionFields rw.newSegment).length
        by simp, ← hap (by omega) (by simp [shdrSize])]
    exact writeBytes_between (by simp only [shdrSize, length_rewriteWrites] at hin ⊢; omega)
      (sectionFields rw.newSegment) 24
  · next hnone =>
    rw [hnone]
    exact (Option.some.inj h₃).symm

theorem dynamicSection_lt (mem : List UInt8) :
    ∀ s ∈ (dynamicSection mem).map (·.1), s < (header mem).shnum := by
  intro s hs
  obtain ⟨x, hx, rfl⟩ := Option.mem_map.mp hs
  exact (mem_sections.mp (List.mem_of_find?_eq_some hx)).1

/-- The two headers the rewrite writes fit the fields of a program header. -/
theorem prelinkRewrite_fits {rw : Rewrite} {d : Nat} {D : ElfSegment}
    (hc : dynCopy lib sys ctx obj rw.orig d D = some rw.copy)
    (hns : rw.newSegment = newSegmentOf obj (lastLoadOf (Scan.init sys).lastLoad (beforeNote obj.mem)) rw.copy) :
    (nSegment obj (lastLoadOf (Scan.init sys).lastLoad (beforeNote obj.mem)) rw.copy).Fits ∧
      (dynSegment rw.newSegment).Fits := by
  obtain ⟨-, -, -, -, -, hdyn, hfile⟩ := dynCopy_eq_some lib sys ctx obj rw.orig hc
  have hu : ∀ x, x % u64 < u64 := fun x => Nat.mod_lt _ (by decide)
  refine ⟨nSegment_fits obj (lastLoadOf_align_lt sys _) (by rw [hfile]; exact hu _), ?_⟩
  rw [hns]
  exact dynSegment_fits (elfPageAlign_lt _ _) (elfPageAlign_lt _ _) (by rw [newSegmentOf, hdyn]; exact hu _)

/-- **The interpreter path the rewrite keeps**: the first `PT_INTERP` string of the input, which
the three writes leave in place, NUL included. -/
theorem prelinkRewrite_interp {rw : Rewrite} (h : prelinkRewrite lib sys ctx obj = some rw)
    (hl : Laid obj.mem) :
    ∃ p, interpSegment obj.mem = some p ∧ interpSegment rw.mem = some p ∧ InterpLaid obj.mem p ∧
      rw.orig.bytes = cStringBytes obj.mem p.offset ∧
      slice obj.mem p.offset (rw.orig.len + 1) = rw.orig.withNul ∧
      slice rw.mem p.offset (rw.orig.len + 1) = rw.orig.withNul ∧
      header rw.mem = header obj.mem ∧ rw.mem.length = obj.mem.length := by
  obtain ⟨horig, -⟩ := prelinkRewrite_spec h
  obtain ⟨t, d, ht, hD, hdt, hc, hns, hmem⟩ := prelinkRewrite_image h hl
  obtain ⟨p, hp, hpo⟩ := Option.map_eq_some'.mp horig
  have hpl := hl.interp p hp
  obtain ⟨htn, hnote, -⟩ := noteSlot_spec ht
  have hdn : d < (header obj.mem).phnum := by omega
  have hs := dynamicSection_lt obj.mem
  obtain ⟨hnf, hdf⟩ := prelinkRewrite_fits hc hns
  have hob : rw.orig.bytes = cStringBytes obj.mem p.offset := by rw [← hpo]; rfl
  have hlen : rw.orig.len = (cStringBytes obj.mem p.offset).length := by rw [CStr.len, hob]
  obtain ⟨h64, hin, hph, hsh⟩ := hpl
  have hsI : slice obj.mem p.offset (rw.orig.len + 1) = rw.orig.withNul := by
    rw [hlen, slice_cStringBytes hin, CStr.withNul, hob]
  refine ⟨p, hp, ?_, ⟨h64, hin, hph, hsh⟩, hob, hsI, ?_,
    by rw [hmem]; exact header_rewriteWrites hl htn hdn hs, by rw [hmem, length_rewriteWrites]⟩
  · rw [hmem, interpSegment_rewriteWrites hl htn hdn hs (by omega) hnf hdf
      (show ptLoad ≠ ptInterp by decide) (show ptDynamic ≠ ptInterp by decide) (by rw [hnote]; decide) (by rw [(lastOfType_mem hD).2]; decide), hp]
  · have hph' : ∀ {j}, j < (header obj.mem).phnum →
        Apart p.offset (rw.orig.len + 1) (phdrOffset obj.mem j) phdrSize := fun hj =>
      hph.mono ⟨le_refl _, by rw [hlen]⟩ ⟨by unfold phdrOffset; omega,
        by unfold phdrOffset phdrSize at *; omega⟩
    rw [hmem, slice_rewriteWrites (hph' htn) (hph' hdn), hsI]
    intro s hs'
    have hsn := hs s hs'
    exact (hsh (by omega)).mono ⟨le_refl _, by rw [hlen]⟩ ⟨by unfold shdrOffset; omega,
      by unfold shdrOffset shdrSize at *; omega⟩

end Rewrite

end Shiva
