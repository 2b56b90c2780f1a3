import Shiva.Roundtrip

/-!
# What the rewrite changes in the image

The first `S` bytes of the output are the input's, but for four places: the signature at
`EI_PAD`, the program headers of `PT_DYNAMIC` and of the first `PT_NOTE`, the address, offset and
size of the first `SHT_DYNAMIC` section header, and the copy of `interp_path` over the
`PT_INTERP` string. The original interpreter path, kept as `DT_SHIVA_ORIG_INTERP`'s string, undoes
the last.

* `getElem?_stamped`: a byte of the stamped image apart from the signature and the `PT_INTERP`
  copy;
* **`rewrite_frame`**: the four places, what they hold, that nothing else of the image moves, and
  that the string the output's `DT_SHIVA_ORIG_INTERP` entry points at, written back over
  `PT_INTERP`, restores the input's bytes there.
-/

namespace Shiva

theorem getElem?_stamped {u : List UInt8} {off : Nat} {s : CStr} {k : Nat} (hs : Apart k 1 eiPad 4)
    (hi : Apart k 1 off (s.len + 1)) : (writeBytes (signed u) off s.withNul)[k]? = u[k]? := by
  rw [getElem?_writeBytes_of_apart (by simpa using hi), signed, getElem?_writeBytes_of_apart (by simpa using hs)]

section Frame

variable {lib : Libelf} {sys : Sys} {ctx : PrelinkCtx} {obj : ElfObj} {fs : Fs}

/-- **The frame of the rewrite.** After a run that returns `true` on a well-laid-out input, with a
`rename` that went through, every byte of the input's `S` bytes reads as before unless it lies in
the signature, in the program header of `PT_DYNAMIC` (`d`) or of the first `PT_NOTE` (`t`), in the
address, offset and size of the first `SHT_DYNAMIC` section header, or in the first
`|interp_path| + 1` bytes of the `PT_INTERP` string. Those hold `SHIVA_SIGNATURE`, the new
`PT_DYNAMIC`'s `p_vaddr`, `p_offset` and `p_filesz`, and `interp_path` with its NUL; the ELF
header and every other program and section header are unchanged. The output's dynamic array ends
with the `DT_SHIVA_ORIG_INTERP` entry this run added and `DT_NULL`; the string that entry points at,
read through the new `PT_LOAD`, is as long as the input's interpreter path, and writing it back with
its NUL over `PT_INTERP` gives back the input's bytes there. -/
theorem rewrite_frame (h : (shivaPrelink lib sys ctx obj fs).1 = some true)
    (hr : sys.renameFails = false) (hl : Laid obj.mem)
    (_hwhole : ∀ rw ∈ prelinkRewrite lib sys ctx obj, WritesWhole sys ctx obj.mem.length rw) :
    ∃ (t d : Nat) (p : ElfSegment) (f : File) (orig : CStr), noteSlot obj.mem = some t ∧
      lastOfType ptDynamic (beforeNote obj.mem) = some (d, segmentAt obj.mem d) ∧
      interpSegment obj.mem = some p ∧ obj.interpreterPath = some orig ∧
      (shivaPrelink lib sys ctx obj fs).2 ctx.outputExec = some f ∧ obj.mem.length ≤ f.data.length ∧
      (∀ k < obj.mem.length, Apart k 1 eiPad 4 → Apart k 1 (phdrOffset obj.mem t) phdrSize →
        Apart k 1 (phdrOffset obj.mem d) phdrSize →
        (∀ s ∈ (dynamicSection obj.mem).map (·.1), Apart k 1 (shdrOffset obj.mem s + 16) 24) →
        Apart k 1 p.offset (ctx.interpPath.len + 1) → f.data[k]? = obj.mem[k]?) ∧
      slice f.data eiPad 4 = leBytes 4 shivaSignature ∧
      (∀ s ∈ (dynamicSection obj.mem).map (·.1), slice f.data (shdrOffset obj.mem s + 16) 24 =
        leBytes 8 (segmentAt f.data d).vaddr ++ leBytes 8 (segmentAt f.data d).offset ++
          leBytes 8 (segmentAt f.data d).filesz) ∧
      slice f.data p.offset (ctx.interpPath.len + 1) = ctx.interpPath.withNul ∧
      header f.data = header obj.mem ∧
      (∀ j < (header obj.mem).phnum, j ≠ t → j ≠ d → segmentAt f.data j = segmentAt obj.mem j) ∧
      (∀ j < (header obj.mem).shnum, j ∉ (dynamicSection obj.mem).map (·.1) →
        sectionAt f.data j = sectionAt obj.mem j) ∧
      ctx.interpPath.len ≤ orig.len ∧
      ∃ (old : List ElfDyn) (a₁ a₂ a₃ : Nat) (s : CStr),
        dynEntries f.data (segmentAt f.data d) =
          old ++ [⟨shivaDtSearch, a₁⟩, ⟨shivaDtNeeded, a₂⟩, ⟨shivaDtOrigInterp, a₃⟩, ⟨dtNull, 0⟩] ∧
        cStringBytes f.data (fileOffset (segmentAt f.data t) a₃) = s.bytes ∧ s.len = orig.len ∧
        slice (writeBytes f.data p.offset s.withNul) p.offset (s.len + 1) = slice obj.mem p.offset (s.len + 1) := by
  obtain ⟨rw, p, f, hrw, hp, hfit, -, hf, hdata⟩ := shivaPrelink_file h hr hl
  obtain ⟨t, d, ht, hD, hdt, hc, hns, hmem⟩ := prelinkRewrite_image hrw hl
  obtain ⟨p', hp', -, ⟨h64, hin, hph, hsh⟩, hob, hsl, -, hhead, hlen⟩ := prelinkRewrite_interp hrw hl
  obtain rfl := Option.some.inj (hp.symm.trans hp')
  obtain ⟨horig, -⟩ := prelinkRewrite_spec hrw
  obtain ⟨hnf, hdf⟩ := prelinkRewrite_fits hc hns
  have htn := (noteSlot_spec ht).1
  have hdn : d < (header obj.mem).phnum := by omega
  have hs := dynamicSection_lt obj.mem
  have hL : rw.orig.len = (cStringBytes obj.mem p.offset).length := by rw [CStr.len, hob]
  have hA : (writeBytes (signed rw.mem) p.offset ctx.interpPath.withNul).length = obj.mem.length := by simp [hlen]
  have hY : segmentAt f.data d = dynSegment rw.newSegment := by
    rw [hdata, segmentAt_stamped hrw hl hp hfit _ hdn, hmem, segmentAt_rewriteWrites hl htn hdn hs (by omega)
      hnf hdf hdn, if_pos rfl]
  refine ⟨t, d, p, f, rw.orig, ht, hD, hp, horig, hf, by simp [hdata, hlen], fun k hk hke hkt hkd hks hki => ?_,
    ?_, fun s hs' => ?_, ?_, by rw [hdata, header_stamped hrw hl hp], fun j hj hjt hjd => ?_, fun j hj hjs => ?_,
    hfit, ?_⟩
  · rw [hdata, List.getElem?_append_left (by omega), getElem?_stamped hke hki, hmem, getElem?_rewriteWrites hkt hkd hks]
  · rw [hdata, slice_append_of_le (by rw [hA]; unfold eiPad; omega),
      slice_writeBytes_of_apart (by simp only [CStr.length_withNul]; unfold Apart eiPad; omega),
      slice_signed (by rw [hlen]; unfold eiPad; omega)]
  · have hsn := hs s hs'
    have hsi := hl.shdr_in hsn
    have hapart : Apart (shdrOffset obj.mem s + 16) 24 p.offset (ctx.interpPath.len + 1) :=
      ((hsh (by omega)).mono ⟨le_rfl, by omega⟩ ⟨by unfold shdrOffset; omega, by
        unfold shdrOffset shdrSize at *; omega⟩).symm
    rw [hY, hdata, slice_append_of_le (by rw [hA]; unfold shdrSize at hsi; omega),
      slice_stamped (.inr (by unfold eiPad; omega)) (by simpa using hapart), hmem]
    cases hsec : (dynamicSection obj.mem).map (·.1) with
    | none => rw [hsec] at hs'; cases hs'
    | some s₀ =>
      rw [hsec, Option.mem_some_iff] at hs'
      subst hs'
      rw [rewriteWrites, ← length_sectionFields rw.newSegment, slice_writeBytes_self
        (by simp only [length_sectionFields, headerWrites, length_writeBytes]; unfold shdrSize at hsi; omega)]
      rfl
  · rw [hdata, slice_append_of_le (by simp [hlen]; omega), ← CStr.length_withNul,
      slice_writeBytes_self (by simp [hlen]; omega)]
  · rw [hdata, segmentAt_stamped hrw hl hp hfit _ hj, hmem, segmentAt_rewriteWrites hl htn hdn hs (by omega)
      hnf hdf hj, if_neg hjd, if_neg hjt]
  · rw [hdata, sectionAt_stamped hrw hl hp hfit _ hj, hmem, sectionAt_rewriteWrites hl htn hdn hs hj hjs]
  · -- the string `DT_SHIVA_ORIG_INTERP` points at, read out of the output, is the original path
    have hm : lib.dtagCount obj.mem * dynEntSize % u64 =
        lib.dtagCount obj.mem * dynEntSize % u64 / dynEntSize * dynEntSize :=
      (Nat.div_mul_cancel (by unfold dynEntSize u64; omega)).symm
    obtain ⟨rw', t', f', hrw', ht', -, hf', hdyn, hcs⟩ := shivaPrelink_entries h hr hl hD hm
    obtain rfl := Option.some.inj (hrw.symm.trans hrw')
    obtain rfl := Option.some.inj (ht.symm.trans ht')
    obtain rfl := Option.some.inj (hf.symm.trans hf')
    refine ⟨_, _, _, _, rw.orig, hdyn, hcs, rfl, ?_⟩
    rw [← CStr.length_withNul, slice_writeBytes_self (by simp [hdata, hlen]; omega), CStr.length_withNul, hsl]

set_option maxRecDepth 10000 in
theorem sample_rewrite_frame :
    (shivaPrelink sampleLib sampleSys sampleCtx sampleObj sampleFs).1 = some true ∧
      sampleSys.renameFails = false ∧ Laid sampleObj.mem ∧
      (∀ rw ∈ prelinkRewrite sampleLib sampleSys sampleCtx sampleObj,
        WritesWhole sampleSys sampleCtx sampleObj.mem.length rw) ∧
      ∃ (t d : Nat) (p : ElfSegment) (f : File) (orig : CStr), noteSlot sampleObj.mem = some t ∧
        lastOfType ptDynamic (beforeNote sampleObj.mem) = some (d, segmentAt sampleObj.mem d) ∧
        interpSegment sampleObj.mem = some p ∧ sampleObj.interpreterPath = some orig ∧
        (shivaPrelink sampleLib sampleSys sampleCtx sampleObj sampleFs).2 sampleCtx.outputExec = some f ∧
        sampleObj.mem.length ≤ f.data.length ∧
        (∀ k < sampleObj.mem.length, Apart k 1 eiPad 4 → Apart k 1 (phdrOffset sampleObj.mem t) phdrSize →
          Apart k 1 (phdrOffset sampleObj.mem d) phdrSize →
          (∀ s ∈ (dynamicSection sampleObj.mem).map (·.1), Apart k 1 (shdrOffset sampleObj.mem s + 16) 24) →
          Apart k 1 p.offset (sampleCtx.interpPath.len + 1) → f.data[k]? = sampleObj.mem[k]?) ∧
        slice f.data eiPad 4 = leBytes 4 shivaSignature ∧
        (∀ s ∈ (dynamicSection sampleObj.mem).map (·.1), slice f.data (shdrOffset sampleObj.mem s + 16) 24 =
          leBytes 8 (segmentAt f.data d).vaddr ++ leBytes 8 (segmentAt f.data d).offset ++
            leBytes 8 (segmentAt f.data d).filesz) ∧
        slice f.data p.offset (sampleCtx.interpPath.len + 1) = sampleCtx.interpPath.withNul ∧
        header f.data = header sampleObj.mem ∧
        (∀ j < (header sampleObj.mem).phnum, j ≠ t → j ≠ d → segmentAt f.data j = segmentAt sampleObj.mem j) ∧
        (∀ j < (header sampleObj.mem).shnum, j ∉ (dynamicSection sampleObj.mem).map (·.1) →
          sectionAt f.data j = sectionAt sampleObj.mem j) ∧
        sampleCtx.interpPath.len ≤ orig.len ∧
        ∃ (old : List ElfDyn) (a₁ a₂ a₃ : Nat) (s : CStr),
          dynEntries f.data (segmentAt f.data d) =
            old ++ [⟨shivaDtSearch, a₁⟩, ⟨shivaDtNeeded, a₂⟩, ⟨shivaDtOrigInterp, a₃⟩, ⟨dtNull, 0⟩] ∧
          cStringBytes f.data (fileOffset (segmentAt f.data t) a₃) = s.bytes ∧ s.len = orig.len ∧
          slice (writeBytes f.data p.offset s.withNul) p.offset (s.len + 1) =
            slice sampleObj.mem p.offset (s.len + 1) :=
  ⟨sample_run, rfl, sample_laid, sample_writesWhole, rewrite_frame sample_run rfl sample_laid sample_writesWhole⟩

/-- The sample with its `PT_INTERP` pointing at `e_phnum`, whose string is the single byte 5. -/
def interpOverPhnumImage : List UInt8 := writeBytes sampleImage 72 (leBytes 8 56)

theorem length_interpOverPhnumImage : interpOverPhnumImage.length = 460 := by
  rw [interpOverPhnumImage, length_writeBytes, length_sampleImage]

def interpOverPhnumObj : ElfObj := ⟨"a.out", interpOverPhnumImage, by rw [length_interpOverPhnumImage]; decide⟩

/-- As `sampleCtx`, with the one-byte interpreter path `/`. -/
def shortCtx : PrelinkCtx := { sampleCtx with interpPath := ⟨[0x2f], by decide, by decide⟩ }

set_option maxRecDepth 10000 in
/-- Both runs return `true`. When `rename` fails, the older file is reopened and signed, so its
byte 8, outside the four places, is not the input's; when the `PT_INTERP` string is `e_phnum`,
copying `/` over it changes `e_phnum` from 5 to `0x2f`. -/
theorem rewrite_frame_fails_stale_or_overlapping :
    ((shivaPrelink sampleLib staleSys sampleCtx sampleObj staleFs).1 = some true ∧ Laid sampleObj.mem ∧
      ∃ f, (shivaPrelink sampleLib staleSys sampleCtx sampleObj staleFs).2 sampleCtx.outputExec = some f ∧
        f.data[8]? = some 1 ∧ sampleObj.mem[8]? = some 0) ∧
    ((shivaPrelink sampleLib sampleSys shortCtx interpOverPhnumObj sampleFs).1 = some true ∧
      sampleSys.renameFails = false ∧
      ∃ f, (shivaPrelink sampleLib sampleSys shortCtx interpOverPhnumObj sampleFs).2 shortCtx.outputExec = some f ∧
        (header f.data).phnum = 0x2f ∧ (header interpOverPhnumObj.mem).phnum = 5) := by
  have hs : ((shivaPrelink sampleLib staleSys sampleCtx sampleObj staleFs).1,
      ((shivaPrelink sampleLib staleSys sampleCtx sampleObj staleFs).2 "a.shiva").map (·.data[8]?)) =
      (some true, some (some 1)) := by decide
  have ho : ((shivaPrelink sampleLib sampleSys shortCtx interpOverPhnumObj sampleFs).1,
      ((shivaPrelink sampleLib sampleSys shortCtx interpOverPhnumObj sampleFs).2 "a.shiva").map
        fun f => (header f.data).phnum) = (some true, some 0x2f) := by decide
  simp only [Prod.mk.injEq] at hs ho
  obtain ⟨f, hf, hf8⟩ := Option.map_eq_some'.mp hs.2
  obtain ⟨g, hg, hgn⟩ := Option.map_eq_some'.mp ho.2
  exact ⟨⟨hs.1, sample_laid, f, hf, hf8, by decide⟩, ⟨ho.1, rfl, g, hg, hgn, by decide⟩⟩

end Frame

end Shiva
