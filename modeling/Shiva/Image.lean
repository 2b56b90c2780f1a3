import Shiva.Layout

/-!
# The output of a run, byte by byte

What a run that returns `true` leaves at `output_exec`, when `rename` went through, for a
well-laid-out input: the rewritten image, with the signature and `interp_path` written into it,
followed by writes 2 to 7 as they were made.

* `outputTail`, `outputImage_eq_append`, `signed_append`, `interpSegment_append`;
* `output_interp`: the reopened file's `PT_INTERP` string is the original interpreter path;
* **`shivaPrelink_file`**: the output file of a run that returns `true`;
* `shivaPrelink_true_of`: the converse, for an input whose steps all go through.
-/

namespace Shiva

/-- Writes 2 to 7: everything the run writes after the image. -/
def outputTail (sys : Sys) (ctx : PrelinkCtx) (size : Nat) (rw : Rewrite) : List UInt8 :=
  padding sys ((rw.newSegment.offset + u64 - size) % u64) ++
    ((List.range ((rw.copy.oldDynamicSize + u64 - dynEntSize) % u64)).map rw.copy.oldDynamicSegment ++
      ((shivaDyn ctx rw.newSegment).flatMap ElfDyn.encode ++
        (ctx.searchPath.withNul ++ (ctx.inputPatch.withNul ++ rw.orig.withNul))))

theorem outputImage_eq_append (sys : Sys) (ctx : PrelinkCtx) (size : Nat) (rw : Rewrite) :
    outputImage sys ctx size rw = rw.mem ++ outputTail sys ctx size rw := by
  simp [outputImage, outputChunks, outputTail]

@[simp] theorem length_signed (d : List UInt8) : (signed d).length = d.length := by
  simp [signed]

theorem slice_signed {u : List UInt8} (h : eiPad + 4 ≤ u.length) : slice (signed u) eiPad 4 = leBytes 4 shivaSignature :=
  slice_writeBytes_self (show eiPad + (leBytes 4 shivaSignature).length ≤ u.length by simpa using h)

theorem signed_append {a : List UInt8} (h : eiPad + 4 ≤ a.length) (b : List UInt8) :
    signed (a ++ b) = signed a ++ b :=
  writeBytes_append_of_le (by simpa using h) b

/-- Bytes after an image whose program-header table lies inside it leave its `PT_INTERP`. -/
theorem interpSegment_append {mem : List UInt8}
    (h : 64 ≤ (header mem).phoff ∧ (header mem).phoff + phdrSize * (header mem).phnum ≤ mem.length)
    (rest : List UInt8) : interpSegment (mem ++ rest) = interpSegment mem := by
  have hh := header_append (show 64 ≤ mem.length by omega) rest
  refine interpSegment_congr (by rw [hh]) fun j hj => .inl ?_
  exact segmentAt_append (by omega) (by unfold phdrOffset phdrSize at *; omega) rest

section Run

variable {lib : Libelf} {sys : Sys} {ctx : PrelinkCtx} {obj : ElfObj} {fs : Fs}

/-- The file the run reopens has the input's first `PT_INTERP`, and after the signature its
string is still the original interpreter path. -/
theorem output_interp {rw : Rewrite} (hrw : prelinkRewrite lib sys ctx obj = some rw) (hl : Laid obj.mem) :
    ∃ p, interpSegment obj.mem = some p ∧
      interpSegment (outputImage sys ctx obj.mem.length rw) = some p ∧
      cStringBytes (signed (outputImage sys ctx obj.mem.length rw)) p.offset = rw.orig.bytes ∧
      p.offset + (rw.orig.len + 1) ≤ obj.mem.length ∧ 64 ≤ p.offset := by
  obtain ⟨p, hp, hpU, ⟨h64, hin, -, -⟩, hob, -, hslice, hhead, hlen⟩ := prelinkRewrite_interp hrw hl
  have hL : rw.orig.len = (cStringBytes obj.mem p.offset).length := by rw [CStr.len, hob]
  have hph : 64 ≤ (header rw.mem).phoff ∧
      (header rw.mem).phoff + phdrSize * (header rw.mem).phnum ≤ rw.mem.length := by
    rw [hhead, hlen]; exact hl.phdrs
  refine ⟨p, hp, by rw [outputImage_eq_append, interpSegment_append hph, hpU], ?_, by rw [hL]; exact hin, h64⟩
  rw [outputImage_eq_append, signed_append (by simp [eiPad]; omega)]
  apply cStringBytes_of_slice
  rw [slice_append_of_le (by simp; omega), signed, slice_writeBytes_of_apart (.inr (by simp [eiPad]; omega)),
    hslice]

/-- **The output file of a run that returns `true`**, when `rename` went through and the input is
well laid out: the rewritten image with the signature and `interp_path` written into it, then
writes 2 to 7. The original interpreter path was long enough for `interp_path`. -/
theorem shivaPrelink_file (h : (shivaPrelink lib sys ctx obj fs).1 = some true)
    (hr : sys.renameFails = false) (hl : Laid obj.mem) :
    ∃ rw p f, prelinkRewrite lib sys ctx obj = some rw ∧ interpSegment obj.mem = some p ∧
      ctx.interpPath.len ≤ rw.orig.len ∧
      (∀ c ∈ outputChunks sys ctx obj.mem.length rw, Writable sys c) ∧
      (shivaPrelink lib sys ctx obj fs).2 ctx.outputExec = some f ∧
      f.data = writeBytes (signed rw.mem) p.offset ctx.interpPath.withNul ++
        outputTail sys ctx obj.mem.length rw := by
  obtain ⟨rw, p', f, hrw, hw, hp', hfit, hf, hdata⟩ := shivaPrelink_output h hr
  obtain ⟨p, hp, hpD, hcs, hin, h64⟩ := output_interp hrw hl
  obtain rfl := Option.some.inj (hpD.symm.trans hp')
  rw [hcs] at hfit
  obtain ⟨-, -, -, -, -, -, -, hhead, hlen⟩ := prelinkRewrite_interp hrw hl
  refine ⟨rw, p, f, hrw, hp, hfit, hw, hf, ?_⟩
  rw [hdata, outputImage_eq_append, signed_append (by simp [eiPad, hlen]; omega),
    writeBytes_append_of_le (by simp [hlen, CStr.len] at *; omega)]

/-- A run on a well-laid-out input whose steps all go through, whose `rename` goes through and
whose output the strict open accepts, with room for `interp_path`, returns `true`. -/
theorem shivaPrelink_true_of {rw : Rewrite} {st : File} {t : String} {fs₁ : Fs}
    (hrw : prelinkRewrite lib sys ctx obj = some rw) (hl : Laid obj.mem)
    (hst : statFile sys fs obj.path = some st) (ht : mkstemp sys fs = some (t, fs₁))
    (hw : ∀ c ∈ outputChunks sys ctx obj.mem.length rw, Writable sys c)
    (hown : sys.fchownFails = false) (hmod : sys.fchmodFails = false)
    (halloc : sys.allocFails .targetPath = false) (hr : sys.renameFails = false)
    (hopen : (outputImage sys ctx obj.mem.length rw).length < addrSpace ∧
      lib.strictOk (outputImage sys ctx obj.mem.length rw) = true)
    (hfit : ctx.interpPath.len ≤ rw.orig.len) :
    (shivaPrelink lib sys ctx obj fs).1 = some true := by
  obtain ⟨p, -, hpD, hcs, -, -⟩ := output_interp hrw hl
  rw [shivaPrelink_of_steps hrw hst ht hw hown hmod halloc]
  refine finish_of_fits (f := ⟨outputImage sys ctx obj.mem.length rw, st.uid, st.gid, st.mode⟩) ?_ hopen hpD
    (by rw [hcs]; exact hfit)
  rw [rename_dst hr (by rw [stage_mkstemp ht]; rfl), stage_mkstemp ht]

/-- Every write of a run goes through when no write fails by itself and the whole output fits in
memory. -/
theorem writable_outputChunks {rw : Rewrite} {size : Nat} (hw : ∀ n, sys.writeFails n = false)
    (hlen : (outputImage sys ctx size rw).length < addrSpace) :
    ∀ c ∈ outputChunks sys ctx size rw, Writable sys c := fun c hc =>
  ⟨hw c.1, lt_of_le_of_lt (List.sublist_flatten_of_mem (List.mem_map_of_mem _ hc)).length_le hlen⟩

/-- The writes of an output of at most `MAX_RW_COUNT` bytes are whole. -/
theorem writesWhole_of_length {rw : Rewrite} {size : Nat} (hlen : (outputImage sys ctx size rw).length ≤ maxRwCount) :
    WritesWhole sys ctx size rw := fun _ hc =>
  le_trans (List.sublist_flatten_of_mem (List.mem_map_of_mem _ hc)).length_le hlen

theorem length_outputImage (sys : Sys) (ctx : PrelinkCtx) (size : Nat) (rw : Rewrite) :
    (outputImage sys ctx size rw).length = rw.mem.length + (rw.newSegment.offset + u64 - size) % u64 +
      (rw.copy.oldDynamicSize + u64 - dynEntSize) % u64 + 4 * dynEntSize +
      (ctx.searchPath.len + 1) + (ctx.inputPatch.len + 1) + (rw.orig.len + 1) := by
  simp only [outputImage_eq_append, outputTail, List.length_append, length_padding, List.length_map,
    List.length_range, length_shivaDyn, CStr.length_withNul]
  omega

/-- The writes of a run are whole when the output its rewrite gives has at most `MAX_RW_COUNT`
bytes, worked out from the new segment's `p_offset`, `old_dynamic_size`, the original interpreter
path and the image. -/
theorem writesWhole_of_rewrite {o m l s : Nat}
    (hfacts : (prelinkRewrite lib sys ctx obj).map
      (fun rw => (rw.newSegment.offset, rw.copy.oldDynamicSize, rw.orig.len, rw.mem.length)) = some (o, m, l, s))
    (hlen : s + (o + u64 - obj.mem.length) % u64 + (m + u64 - dynEntSize) % u64 + 4 * dynEntSize +
      (ctx.searchPath.len + 1) + (ctx.inputPatch.len + 1) + (l + 1) ≤ maxRwCount) :
    ∀ rw ∈ prelinkRewrite lib sys ctx obj, WritesWhole sys ctx obj.mem.length rw := by
  intro rw hmem
  rw [Option.mem_def.mp hmem, Option.map_some', Option.some.injEq, Prod.mk.injEq, Prod.mk.injEq,
    Prod.mk.injEq] at hfacts
  obtain ⟨rfl, rfl, rfl, rfl⟩ := hfacts
  exact writesWhole_of_length (by rw [length_outputImage]; exact hlen)

/-! ## Reading the output -/

/-- Bytes apart from the signature and the `PT_INTERP` copy read as in the rewritten image. -/
theorem slice_stamped {u : List UInt8} {off : Nat} {s : CStr} {a w : Nat} (hs : Apart a w eiPad 4)
    (hi : Apart a w off (s.len + 1)) : slice (writeBytes (signed u) off s.withNul) a w = slice u a w := by
  rw [slice_writeBytes_of_apart (by simpa using hi), signed, slice_writeBytes_of_apart (by simpa using hs)]

variable {rw : Rewrite} (hrw : prelinkRewrite lib sys ctx obj = some rw) (hl : Laid obj.mem)
  {p : ElfSegment} (hp : interpSegment obj.mem = some p) (hfit : ctx.interpPath.len ≤ rw.orig.len)
include hrw hl hp hfit

omit hfit in
/-- The stamped image keeps the input's ELF header fields. -/
theorem header_stamped (tail : List UInt8) :
    header (writeBytes (signed rw.mem) p.offset ctx.interpPath.withNul ++ tail) = header obj.mem := by
  obtain ⟨p', hp', -, ⟨h64, hin, -, -⟩, hob, -, -, hhead, hlen⟩ := prelinkRewrite_interp hrw hl
  obtain rfl := Option.some.inj (hp.symm.trans hp')
  rw [header_append (by simp [hlen]; omega), header_writeBytes (.inr (by simpa using h64)), signed,
    header_writeBytes (.inl (by simp [eiPad])), hhead]

/-- **The program headers of the output** are those of the rewritten image. -/
theorem segmentAt_stamped (tail : List UInt8) {j : Nat} (hj : j < (header obj.mem).phnum) :
    segmentAt (writeBytes (signed rw.mem) p.offset ctx.interpPath.withNul ++ tail) j = segmentAt rw.mem j := by
  obtain ⟨p', hp', -, ⟨h64, hin, hph, -⟩, hob, -, -, hhead, hlen⟩ := prelinkRewrite_interp hrw hl
  obtain rfl := Option.some.inj (hp.symm.trans hp')
  have hL : rw.orig.len = (cStringBytes obj.mem p.offset).length := by rw [CStr.len, hob]
  have hin' := hl.phdr_in hj
  rw [segmentAt_append (by simp [hlen]; omega) (by rw [phdrOffset, header_writeBytes (.inr (by simpa using h64)),
      signed, header_writeBytes (.inl (by simp [eiPad])), hhead, ← phdrOffset]; simp [hlen]; omega),
    segmentAt, segmentAt, phdrOffset, phdrOffset, header_writeBytes (.inr (by simpa using h64)), signed,
    header_writeBytes (.inl (by simp [eiPad])), hhead, ← phdrOffset, ← signed,
    slice_stamped (.inr (by simp [eiPad]; omega))
      (hph.symm.mono ⟨by unfold phdrOffset; omega, by unfold phdrOffset phdrSize at *; omega⟩
        ⟨le_refl _, by rw [hL] at hfit; omega⟩)]

/-- The section headers of the output are those of the rewritten image. -/
theorem sectionAt_stamped (tail : List UInt8) {j : Nat} (hj : j < (header obj.mem).shnum) :
    sectionAt (writeBytes (signed rw.mem) p.offset ctx.interpPath.withNul ++ tail) j = sectionAt rw.mem j := by
  obtain ⟨p', hp', -, ⟨h64, hin, -, hsh⟩, hob, -, -, hhead, hlen⟩ := prelinkRewrite_interp hrw hl
  obtain rfl := Option.some.inj (hp.symm.trans hp')
  have hL : rw.orig.len = (cStringBytes obj.mem p.offset).length := by rw [CStr.len, hob]
  have hin' := hl.shdr_in hj
  rw [sectionAt_append (by simp [hlen]; omega) (by rw [shdrOffset, header_writeBytes (.inr (by simpa using h64)),
      signed, header_writeBytes (.inl (by simp [eiPad])), hhead, ← shdrOffset]; simp [hlen]; omega),
    sectionAt, sectionAt, shdrOffset, shdrOffset, header_writeBytes (.inr (by simpa using h64)), signed,
    header_writeBytes (.inl (by simp [eiPad])), hhead, ← shdrOffset, ← signed,
    slice_stamped (.inr (by simp [eiPad]; omega))
      ((hsh (by omega)).symm.mono ⟨by unfold shdrOffset; omega, by unfold shdrOffset shdrSize at *; omega⟩
        ⟨le_refl _, by rw [hL] at hfit; omega⟩)]

end Run

section Headers

variable {lib : Libelf} {sys : Sys} {ctx : PrelinkCtx} {obj : ElfObj} {fs : Fs}

/-- **The headers of the output.** After a run that returns `true` on a well-laid-out input, with
a `rename` that went through, the file at `output_exec` has the input's ELF header and program
headers, but for `PT_DYNAMIC` at `d`, the last one before the first `PT_NOTE`, and that
`PT_NOTE` at `t`, which hold `dyn_segment` and `n_segment`. -/
theorem shivaPrelink_headers (h : (shivaPrelink lib sys ctx obj fs).1 = some true)
    (hr : sys.renameFails = false) (hl : Laid obj.mem) :
    ∃ (rw : Rewrite) (t d : Nat) (f : File), noteSlot obj.mem = some t ∧
      lastOfType ptDynamic (beforeNote obj.mem) = some (d, segmentAt obj.mem d) ∧ d < t ∧
      rw.newSegment = newSegmentOf obj (lastLoadOf (Scan.init sys).lastLoad (beforeNote obj.mem)) rw.copy ∧
      (shivaPrelink lib sys ctx obj fs).2 ctx.outputExec = some f ∧ header f.data = header obj.mem ∧
      obj.mem.length ≤ f.data.length ∧
      ∀ j < (header obj.mem).phnum, segmentAt f.data j =
        if j = d then dynSegment rw.newSegment
        else if j = t then nSegment obj (lastLoadOf (Scan.init sys).lastLoad (beforeNote obj.mem)) rw.copy
        else segmentAt obj.mem j := by
  obtain ⟨rw, p, f, hrw, hp, hfit, -, hf, hdata⟩ := shivaPrelink_file h hr hl
  obtain ⟨t, d, ht, hD, hdt, hc, hns, hmem⟩ := prelinkRewrite_image hrw hl
  obtain ⟨-, -, -, -, -, -, -, -, hlen⟩ := prelinkRewrite_interp hrw hl
  obtain ⟨hnf, hdf⟩ := prelinkRewrite_fits hc hns
  have htn := (noteSlot_spec ht).1
  refine ⟨rw, t, d, f, ht, hD, hdt, hns, hf, by rw [hdata, header_stamped hrw hl hp], by simp [hdata, hlen],
    fun j hj => ?_⟩
  rw [hdata, segmentAt_stamped hrw hl hp hfit _ hj, hmem, segmentAt_rewriteWrites hl htn (by omega)
    (dynamicSection_lt obj.mem) (by omega) hnf hdf hj]

/-- **The output is well laid out.** After a run that returns `true` on a well-laid-out input,
with a `rename` that went through, the file at `output_exec` keeps the input's `PT_INTERP`, whose
string now reads `interp_path`, and is itself well laid out. -/
theorem shivaPrelink_laid (h : (shivaPrelink lib sys ctx obj fs).1 = some true)
    (hr : sys.renameFails = false) (hl : Laid obj.mem) :
    ∃ (p : ElfSegment) (f : File), interpSegment obj.mem = some p ∧
      (shivaPrelink lib sys ctx obj fs).2 ctx.outputExec = some f ∧ interpSegment f.data = some p ∧
      slice f.data p.offset (ctx.interpPath.len + 1) = ctx.interpPath.withNul ∧ Laid f.data := by
  obtain ⟨rw, p, f, hrw, hp, hfit, -, hf, hdata⟩ := shivaPrelink_file h hr hl
  obtain ⟨p', hp', hpU, ⟨h64, hin, hph, hsh⟩, hob, -, -, hhead, hlen⟩ := prelinkRewrite_interp hrw hl
  obtain rfl := Option.some.inj (hp.symm.trans hp')
  have hL : rw.orig.len = (cStringBytes obj.mem p.offset).length := by rw [CStr.len, hob]
  have hhd : header f.data = header obj.mem := by rw [hdata, header_stamped hrw hl hp]
  have hS : obj.mem.length ≤ f.data.length := by simp [hdata, hlen]
  have hslice : slice f.data p.offset (ctx.interpPath.len + 1) = ctx.interpPath.withNul := by
    rw [hdata, slice_append_of_le (by simp [hlen]; omega), ← CStr.length_withNul,
      slice_writeBytes_self (by simp [hlen]; omega)]
  have hint : interpSegment f.data = some p := by
    rw [← hpU]
    refine interpSegment_congr (by rw [hhd, hhead]) fun j hj => .inl ?_
    rw [hdata, segmentAt_stamped hrw hl hp hfit _ (by rwa [hhead] at hj)]
  have hcs : cStringBytes f.data p.offset = ctx.interpPath.bytes := cStringBytes_of_slice hslice
  have hpl := hl.phdrs
  refine ⟨p, f, hp, hf, hint, hslice, ⟨by rw [hhd]; omega, fun hn => by rw [hhd] at hn ⊢; have := hl.shdrs hn; omega,
    by rw [hhd]; exact hl.apart, fun p' hp'' => ?_⟩⟩
  obtain rfl := Option.some.inj (hint.symm.trans hp'')
  have hle : (cStringBytes f.data p.offset).length + 1 ≤ (cStringBytes obj.mem p.offset).length + 1 := by
    rw [hcs, ← CStr.len]; omega
  unfold InterpLaid
  rw [hhd]
  exact ⟨h64, by omega, hph.mono ⟨le_rfl, by omega⟩ ⟨le_rfl, le_rfl⟩, fun hn => (hsh hn).mono ⟨le_rfl, by omega⟩ ⟨le_rfl, le_rfl⟩⟩

end Headers

/-! ## A sample input

A 460-byte executable: `PT_INTERP` (`/ld`), `PT_DYNAMIC` (an entry and two `DT_NULL`s), two
`PT_NOTE`s, a `PT_LOAD` after them, and a `SHT_DYNAMIC` section header. No `PT_LOAD` comes before
the first `PT_NOTE`, so the new segment is placed from the uninitialised locals, here `0x1000`
with alignment 8, and a whole run is small enough to evaluate. -/

section Sample

set_option maxRecDepth 10000

/-- The sample image. -/
def sampleImage : List UInt8 :=
  ([0x7f, 0x45, 0x4c, 0x46, 2, 1, 1, 0] ++ List.replicate 8 0 ++ leBytes 2 2 ++ leBytes 2 62 ++
    leBytes 4 1 ++ leBytes 8 0 ++ leBytes 8 64 ++ leBytes 8 396 ++ leBytes 4 0 ++ leBytes 2 64 ++
    leBytes 2 56 ++ leBytes 2 5 ++ leBytes 2 64 ++ leBytes 2 1 ++ leBytes 2 0) ++
  ElfSegment.encode ⟨ptInterp, 4, 344, 344, 344, 4, 4, 1⟩ ++
  ElfSegment.encode ⟨ptDynamic, 6, 348, 348, 348, 48, 48, 8⟩ ++
  ElfSegment.encode ⟨ptNote, 4, 0, 0, 0, 0, 0, 4⟩ ++
  ElfSegment.encode ⟨ptNote, 4, 0, 0, 0, 0, 0, 4⟩ ++
  ElfSegment.encode ⟨ptLoad, 5, 0, 0, 0, 460, 460, 4096⟩ ++
  [0x2f, 0x6c, 0x64, 0] ++
  ElfDyn.encode ⟨1, 1⟩ ++ ElfDyn.encode ⟨0, 0⟩ ++ ElfDyn.encode ⟨0, 0⟩ ++
  ElfSection.encode ⟨0, shtDynamic, 3, 348, 348, 48, 0, 0, 8, 16⟩

theorem length_sampleImage : sampleImage.length = 460 := by decide

def sampleObj : ElfObj := ⟨"a.out", sampleImage, by rw [length_sampleImage]; decide⟩

/-- A library whose strict open accepts every image and whose `elf_dtag_count` is 2. -/
def sampleLib : Libelf := ⟨fun _ => true, fun _ => 2⟩

/-- Every call goes through; the stack after `null` holds `0xAA` bytes; the working directory is
`/w`. -/
def sampleSys : Sys := ⟨fun _ => false, false, some "/tmp/elf.A", fun _ => false, false, false, false,
  fun _ => 0xAA, fun _ => 0xBB, 0x1000, 0, 8, "/w"⟩

/-- Patch `p.o`, output `a.shiva`, search path `/m`, interpreter `/s`. -/
def sampleCtx : PrelinkCtx :=
  ⟨"a.out", ⟨[0x70, 0x2e, 0x6f], by decide, by decide⟩, "a.shiva", ⟨[0x2f, 0x6d], by decide, by decide⟩,
    ⟨[0x2f, 0x73], by decide, by decide⟩⟩

def sampleFs : Fs := fun p => if p = "a.out" then some ⟨sampleImage, 1000, 1000, 0o755⟩ else none

theorem sample_laid : Laid sampleImage := by
  refine ⟨by decide, by decide, by decide, fun p hp => ?_⟩
  obtain rfl : p = ⟨ptInterp, 4, 344, 344, 344, 4, 4, 1⟩ :=
    Option.some.inj (hp.symm.trans (by decide))
  unfold InterpLaid
  decide


/-- An older file at `output_exec`: the sample with `EI_ABIVERSION` set. -/
def staleImage : List UInt8 := writeBytes sampleImage 8 [1]

/-- As `sampleSys`, but `rename` fails (`EXDEV`, say). -/
def staleSys : Sys := { sampleSys with renameFails := true }

def staleFs : Fs := Function.update sampleFs "a.shiva" (some ⟨staleImage, 1000, 1000, 0o755⟩)

/-- The sample with its `PT_LOAD` first, before `PT_INTERP`, `PT_DYNAMIC` and the two `PT_NOTE`s:
the layout a linker produces. The new segment goes to the next page, 4096. -/
def loadImage : List UInt8 :=
  ([0x7f, 0x45, 0x4c, 0x46, 2, 1, 1, 0] ++ List.replicate 8 0 ++ leBytes 2 2 ++ leBytes 2 62 ++
    leBytes 4 1 ++ leBytes 8 0 ++ leBytes 8 64 ++ leBytes 8 396 ++ leBytes 4 0 ++ leBytes 2 64 ++
    leBytes 2 56 ++ leBytes 2 5 ++ leBytes 2 64 ++ leBytes 2 1 ++ leBytes 2 0) ++
  ElfSegment.encode ⟨ptLoad, 5, 0, 0, 0, 460, 460, 4096⟩ ++
  ElfSegment.encode ⟨ptInterp, 4, 344, 344, 344, 4, 4, 1⟩ ++
  ElfSegment.encode ⟨ptDynamic, 6, 348, 348, 348, 48, 48, 8⟩ ++
  ElfSegment.encode ⟨ptNote, 4, 0, 0, 0, 0, 0, 4⟩ ++
  ElfSegment.encode ⟨ptNote, 4, 0, 0, 0, 0, 0, 4⟩ ++
  [0x2f, 0x6c, 0x64, 0] ++
  ElfDyn.encode ⟨1, 1⟩ ++ ElfDyn.encode ⟨0, 0⟩ ++ ElfDyn.encode ⟨0, 0⟩ ++
  ElfSection.encode ⟨0, shtDynamic, 3, 348, 348, 48, 0, 0, 8, 16⟩

theorem length_loadImage : loadImage.length = 460 := by decide

def loadObj : ElfObj := ⟨"a.out", loadImage, by rw [length_loadImage]; decide⟩

def loadFs : Fs := fun p => if p = "a.out" then some ⟨loadImage, 1000, 1000, 0o755⟩ else none

theorem load_laid : Laid loadImage := by
  refine ⟨by decide, by decide, by decide, fun p hp => ?_⟩
  obtain rfl : p = ⟨ptInterp, 4, 344, 344, 344, 4, 4, 1⟩ :=
    Option.some.inj (hp.symm.trans (by decide))
  unfold InterpLaid
  decide

/-- A run under `sampleSys`, with a library whose strict open accepts every image, returns `true`
once the header rewrite goes through with an output that fits in memory and room for
`interp_path`, worked out from the new segment's `p_offset`, `old_dynamic_size`, the original
interpreter path and the image. A run goes through here rather than by evaluation: only the
header rewrite is evaluated. -/
theorem sample_run_of {lib : Libelf} (hok : lib.strictOk = fun _ => true) {ctx : PrelinkCtx} {obj : ElfObj}
    {fs : Fs} {st : File} (hl : Laid obj.mem) (hst : fs obj.path = some st) (htmp : fs "/tmp/elf.A" = none)
    {o m l s : Nat} (hfacts : (prelinkRewrite lib sampleSys ctx obj).map
      (fun rw => (rw.newSegment.offset, rw.copy.oldDynamicSize, rw.orig.len, rw.mem.length)) = some (o, m, l, s))
    (hlen : s + (o + u64 - obj.mem.length) % u64 + (m + u64 - dynEntSize) % u64 + 4 * dynEntSize +
      (ctx.searchPath.len + 1) + (ctx.inputPatch.len + 1) + (l + 1) < addrSpace)
    (hfit : ctx.interpPath.len ≤ l) : (shivaPrelink lib sampleSys ctx obj fs).1 = some true := by
  obtain ⟨rw, hrw, hf⟩ := Option.map_eq_some'.mp hfacts
  simp only [Prod.mk.injEq] at hf
  obtain ⟨rfl, rfl, rfl, rfl⟩ := hf
  have hlen' : (outputImage sampleSys ctx obj.mem.length rw).length < addrSpace := by
    rw [length_outputImage]; exact hlen
  have hst' : statFile sampleSys fs obj.path = some st := by rw [statFile, if_neg (by decide), hst]
  have ht : mkstemp sampleSys fs = some ("/tmp/elf.A", Function.update fs "/tmp/elf.A" (some ⟨[], 0, 0, 0o600⟩)) := by
    simp [mkstemp, sampleSys, htmp]
  have hok' : lib.strictOk (outputImage sampleSys ctx obj.mem.length rw) = true := by rw [hok]
  exact shivaPrelink_true_of hrw hl hst' ht (writable_outputChunks (fun _ => rfl) hlen') rfl rfl rfl rfl
    ⟨hlen', hok'⟩ hfit

theorem sample_writesWhole : ∀ rw ∈ prelinkRewrite sampleLib sampleSys sampleCtx sampleObj,
    WritesWhole sampleSys sampleCtx sampleObj.mem.length rw :=
  writesWhole_of_rewrite (show _ = some (464, 32, 3, 460) by decide) (by decide)

theorem load_writesWhole : ∀ rw ∈ prelinkRewrite sampleLib sampleSys sampleCtx loadObj,
    WritesWhole sampleSys sampleCtx loadObj.mem.length rw :=
  writesWhole_of_rewrite (show _ = some (4096, 32, 3, 460) by decide) (by decide)

theorem sample_run : (shivaPrelink sampleLib sampleSys sampleCtx sampleObj sampleFs).1 = some true :=
  sample_run_of rfl sample_laid rfl rfl (show _ = some (464, 32, 3, 460) by decide) (by decide) (by decide)

theorem load_run : (shivaPrelink sampleLib sampleSys sampleCtx loadObj loadFs).1 = some true :=
  sample_run_of rfl load_laid rfl rfl (show _ = some (4096, 32, 3, 460) by decide) (by decide) (by decide)

end Sample

end Shiva
