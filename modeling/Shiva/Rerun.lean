import Shiva.Roundtrip

/-!
# Prelinking a prelinked file

`shiva_prelink` never reads `SHIVA_SIGNATURE`, so it runs again on its own output. The first run
turned the first `PT_NOTE` into a `PT_LOAD` and copied `interp_path` over the `PT_INTERP` string;
a second run takes the next `PT_NOTE`, and the interpreter path it records as
`DT_SHIVA_ORIG_INTERP` is the one the first run wrote.

* **`rerun_orig_interp`**: in the output of a second run, the `DT_SHIVA_ORIG_INTERP` entry names
  `interp_path`;
* `rerun_of_single_note`: when the input had one `PT_NOTE`, a second run finds none and fails;
* `sampleOutput`, `rerunObj`, `rerun_run`: the sample's output, prelinked again; `countLib`: a
  library that counts the dynamic entries, with which the second run copies the first run's
  Shiva entries.
-/

namespace Shiva

section Rerun

variable {lib : Libelf} {sys : Sys} {ctx : PrelinkCtx} {obj : ElfObj} {fs : Fs}

/-- The interpreter path of an object opened on the output of a run that returns `true`, with a
`rename` that went through, is `interp_path`. -/
theorem interpreterPath_output (h : (shivaPrelink lib sys ctx obj fs).1 = some true)
    (hr : sys.renameFails = false) (hl : Laid obj.mem) {f : File}
    (hf : (shivaPrelink lib sys ctx obj fs).2 ctx.outputExec = some f) {obj₂ : ElfObj} (hX : obj₂.mem = f.data) :
    obj₂.interpreterPath = some ctx.interpPath ∧ Laid obj₂.mem := by
  obtain ⟨p, f', -, hf', hint, hslice, hlf⟩ := shivaPrelink_laid h hr hl
  obtain rfl := Option.some.inj (hf'.symm.trans hf)
  refine ⟨?_, hX ▸ hlf⟩
  rw [ElfObj.interpreterPath, show interpSegment obj₂.mem = some p by rw [hX, hint], Option.map_some']
  exact congrArg some (CStr.ext (show cStringBytes obj₂.mem p.offset = _ by rw [hX]; exact cStringBytes_of_slice hslice))

end Rerun

/-! ## The sample, prelinked twice -/

section Sample

set_option maxRecDepth 10000

/-- The sample's output: the image with the signature, `/s` over `/ld`, the new `PT_DYNAMIC` and
`PT_LOAD` headers and the `.dynamic` section fields; then `null` and three stack bytes up to
offset 464, the first entry of the old dynamic array, the Shiva entries and the three strings. -/
def sampleOutput : List UInt8 :=
  writeBytes (signed (writeBytes (writeBytes (writeBytes sampleImage 120
      (ElfSegment.encode ⟨ptDynamic, 6, 464, 0x1000, 0x1000, 80, 80, 8⟩)) 176
      (ElfSegment.encode ⟨ptLoad, 7, 464, 0x1000, 0x1000, 107, 107, 8⟩)) 412
      (leBytes 8 0x1000 ++ leBytes 8 464 ++ leBytes 8 80))) 344 [0x2f, 0x73, 0] ++
    [0, 0xAA, 0xAA, 0xAA] ++ ElfDyn.encode ⟨1, 1⟩ ++
    ([⟨shivaDtSearch, 0x1050⟩, ⟨shivaDtNeeded, 0x1053⟩, ⟨shivaDtOrigInterp, 0x1057⟩, ⟨dtNull, 0⟩] : List ElfDyn).flatMap
      ElfDyn.encode ++
    [0x2f, 0x6d, 0, 0x70, 0x2e, 0x6f, 0, 0x2f, 0x6c, 0x64, 0]

theorem sample_output_file : (shivaPrelink sampleLib sampleSys sampleCtx sampleObj sampleFs).2 sampleCtx.outputExec =
    some ⟨sampleOutput, 1000, 1000, 0o755⟩ := by rfl

theorem length_sampleOutput : sampleOutput.length = 555 := by decide

/-- The sample's output, opened again. -/
def rerunObj : ElfObj := ⟨"a.shiva", sampleOutput, by rw [length_sampleOutput]; decide⟩

/-- The sample's parameters, prelinking `a.shiva` into `b.shiva`. -/
def rerunCtx : PrelinkCtx := { sampleCtx with inputExec := "a.shiva", outputExec := "b.shiva" }

/-- A second run, on the sample's output, whose header rewrite puts the new segment at 4096 and
copies between 16 and 4096 bytes of dynamic entries, returns `true`. -/
theorem rerun_run_of {lib : Libelf} (hok : lib.strictOk = fun _ => true)
    (h : (shivaPrelink lib sampleSys sampleCtx sampleObj sampleFs).1 = some true)
    (hf : (shivaPrelink lib sampleSys sampleCtx sampleObj sampleFs).2 sampleCtx.outputExec =
      some ⟨sampleOutput, 1000, 1000, 0o755⟩)
    (htmp : (shivaPrelink lib sampleSys sampleCtx sampleObj sampleFs).2 "/tmp/elf.A" = none) {o : Nat}
    (hfacts : (prelinkRewrite lib sampleSys rerunCtx rerunObj).map
      (fun rw => (rw.newSegment.offset, rw.copy.oldDynamicSize, rw.orig.len, rw.mem.length)) = some (4096, o, 2, 555))
    (ho : 16 ≤ o ∧ o ≤ 4096) :
    (shivaPrelink lib sampleSys rerunCtx rerunObj (shivaPrelink lib sampleSys sampleCtx sampleObj sampleFs).2).1 =
      some true := by
  have hl := (interpreterPath_output h rfl sample_laid hf (show rerunObj.mem = sampleOutput from rfl)).2
  have hst : (shivaPrelink lib sampleSys sampleCtx sampleObj sampleFs).2 rerunObj.path =
      some ⟨sampleOutput, 1000, 1000, 0o755⟩ := by
    rw [show rerunObj.path = sampleCtx.outputExec from rfl, hf]
  have hs : rerunCtx.searchPath.len + rerunCtx.inputPatch.len = 5 := rfl
  exact sample_run_of hok hl hst htmp hfacts
    (by rw [show rerunObj.mem.length = 555 from length_sampleOutput]; unfold u64 addrSpace dynEntSize; omega)
    (by decide)

/-- The first run renamed its temporary file away. -/
theorem sample_tmp_gone : (shivaPrelink sampleLib sampleSys sampleCtx sampleObj sampleFs).2 "/tmp/elf.A" = none :=
  shivaPrelink_tmp_gone sample_run rfl rfl (by decide)

theorem rerun_run : (shivaPrelink sampleLib sampleSys rerunCtx rerunObj
    (shivaPrelink sampleLib sampleSys sampleCtx sampleObj sampleFs).2).1 = some true :=
  rerun_run_of (o := 32) rfl sample_run sample_output_file sample_tmp_gone (by decide) (by decide)

end Sample

/-! ## A second run -/

section Rerun

variable {lib : Libelf} {sys : Sys} {ctx : PrelinkCtx} {obj : ElfObj} {fs : Fs}

/-- **A file prelinked from an input with one `PT_NOTE` cannot be prelinked again.** After a run
that returns `true` on a well-laid-out input with a single `PT_NOTE`, with a `rename` that went
through, the output has no `PT_NOTE` left: a run on it, with any library, system and parameters,
returns `false` and changes no file. -/
theorem rerun_of_single_note (h : (shivaPrelink lib sys ctx obj fs).1 = some true)
    (hr : sys.renameFails = false) (hl : Laid obj.mem) {f : File}
    (hf : (shivaPrelink lib sys ctx obj fs).2 ctx.outputExec = some f) {t : Nat} (ht : noteSlot obj.mem = some t)
    (hone : ∀ j < (header obj.mem).phnum, j ≠ t → (segmentAt obj.mem j).type ≠ ptNote) :
    noteSlot f.data = none ∧ ∀ obj₂ : ElfObj, obj₂.mem = f.data →
      ∀ (lib₂ : Libelf) (sys₂ : Sys) (ctx₂ : PrelinkCtx) (fs₂ : Fs), shivaPrelink lib₂ sys₂ ctx₂ obj₂ fs₂ = (some false, fs₂) := by
  obtain ⟨rw, t', d, f', ht', -, -, -, hf', hhead, -, hseg⟩ := shivaPrelink_headers h hr hl
  obtain rfl := Option.some.inj (hf'.symm.trans hf)
  obtain rfl : t = t' := Option.some.inj (ht.symm.trans ht')
  have hnone : noteSlot f'.data = none := by
    cases h₂ : noteSlot f'.data with
    | none => rfl
    | some t₂ =>
      obtain ⟨ht₂, hnote, -⟩ := noteSlot_spec h₂
      rw [hhead] at ht₂
      rw [hseg t₂ ht₂] at hnote
      split_ifs at hnote with hd htt
      · exact absurd hnote (show ptDynamic ≠ ptNote by decide)
      · exact absurd hnote (show ptLoad ≠ ptNote by decide)
      · exact absurd hnote (hone t₂ ht₂ htt)
  refine ⟨hnone, fun obj₂ hX lib₂ sys₂ ctx₂ fs₂ => ?_⟩
  have hrw : prelinkRewrite lib₂ sys₂ ctx₂ obj₂ = none := by
    cases h₂ : prelinkRewrite lib₂ sys₂ ctx₂ obj₂ with
    | none => rfl
    | some rw₂ =>
      obtain ⟨-, t₂, -, -, -, -, ht₂, -⟩ := prelinkRewrite_spec h₂
      rw [hX, hnone] at ht₂
      cases ht₂
  rw [shivaPrelink, hrw]

set_option maxRecDepth 10000 in
/-- The sample's only `PT_NOTE` left after the first run is header 3, so the second run leaves
none: a third run fails whatever it is given. -/
theorem rerun_leaves_no_note :
    (shivaPrelink sampleLib sampleSys rerunCtx rerunObj
        (shivaPrelink sampleLib sampleSys sampleCtx sampleObj sampleFs).2).1 = some true ∧
      Laid rerunObj.mem ∧ noteSlot rerunObj.mem = some 3 ∧
      (∀ j < (header rerunObj.mem).phnum, j ≠ 3 → (segmentAt rerunObj.mem j).type ≠ ptNote) ∧
      ∃ f, (shivaPrelink sampleLib sampleSys rerunCtx rerunObj
          (shivaPrelink sampleLib sampleSys sampleCtx sampleObj sampleFs).2).2 rerunCtx.outputExec = some f ∧
        noteSlot f.data = none ∧ ∀ obj₂ : ElfObj, obj₂.mem = f.data →
          ∀ (lib₂ : Libelf) (sys₂ : Sys) (ctx₂ : PrelinkCtx) (fs₂ : Fs),
            shivaPrelink lib₂ sys₂ ctx₂ obj₂ fs₂ = (some false, fs₂) := by
  have hl := (interpreterPath_output sample_run rfl sample_laid sample_output_file
    (show rerunObj.mem = sampleOutput from rfl)).2
  obtain ⟨-, f, -, hf, -⟩ := shivaPrelink_laid rerun_run rfl hl
  have ht : noteSlot rerunObj.mem = some 3 := by decide
  have hone : ∀ j < (header rerunObj.mem).phnum, j ≠ 3 → (segmentAt rerunObj.mem j).type ≠ ptNote := by decide
  exact ⟨rerun_run, hl, ht, hone, f, hf, rerun_of_single_note rerun_run rfl hl hf ht hone⟩

end Rerun

end Shiva
