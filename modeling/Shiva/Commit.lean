import Shiva.Image

/-!
# When the output is committed

`shiva_prelink` writes the output to a temporary file and `rename`s it over `output_exec` before
its last two checks: the strict reopen and the length of the `PT_INTERP` string. A run that fails
either check has already replaced `output_exec`. The return value of `rename` is not checked, so a
failed `rename` leaves an older file at `output_exec`, which the run then reopens and signs.

* `shivaPrelink_input_unchanged`, `shivaLd_input_unchanged`: a run leaves its input alone unless the
  input is also the output;
* **`shivaPrelink_of_short_interp`**: a run on a well-laid-out input whose `interp_path` is longer
  than the original interpreter path returns `false` with the new output, signed, at
  `output_exec`;
* `shivaPrelink_output_of_stop`, `finish_output`, **`output_changed_after_steps`**: every way a run
  can change `output_exec`, each after every step before `rename` went through.
-/

namespace Shiva

section Commit

variable {lib : Libelf} {sys : Sys} {ctx : PrelinkCtx} {obj : ElfObj} {fs : Fs}

/-- **An interpreter path that does not fit is found after `rename`.** A run whose steps all go
through, with a `rename` that goes through and an output the strict open accepts, but whose
`interp_path` is longer than the original interpreter path, returns `false` and leaves at
`output_exec` the new output with the signature written into it. -/
theorem shivaPrelink_of_short_interp {rw : Rewrite} {st : File} {t : String} {fs₁ : Fs}
    (hrw : prelinkRewrite lib sys ctx obj = some rw) (hl : Laid obj.mem)
    (hst : statFile sys fs obj.path = some st) (ht : mkstemp sys fs = some (t, fs₁))
    (hw : ∀ c ∈ outputChunks sys ctx obj.mem.length rw, Writable sys c)
    (hown : sys.fchownFails = false) (hmod : sys.fchmodFails = false)
    (halloc : sys.allocFails .targetPath = false) (hr : sys.renameFails = false)
    (hopen : (outputImage sys ctx obj.mem.length rw).length < addrSpace ∧
      lib.strictOk (outputImage sys ctx obj.mem.length rw) = true)
    (hshort : rw.orig.len < ctx.interpPath.len) :
    (shivaPrelink lib sys ctx obj fs).1 = some false ∧
      (shivaPrelink lib sys ctx obj fs).2 ctx.outputExec =
        some ⟨signed (outputImage sys ctx obj.mem.length rw), st.uid, st.gid, st.mode⟩ := by
  obtain ⟨p, -, hpD, hcs, -, -⟩ := output_interp hrw hl
  have hf : rename sys t ctx.outputExec (stage fs₁ t (outputImage sys ctx obj.mem.length rw) st) ctx.outputExec =
      some ⟨outputImage sys ctx obj.mem.length rw, st.uid, st.gid, st.mode⟩ := by
    rw [rename_dst hr (by rw [stage_mkstemp ht]; rfl), stage_mkstemp ht]
  rw [shivaPrelink_of_steps hrw hst ht hw hown hmod halloc, finish_of_short hf hopen hpD
    (by rw [hcs]; exact hshort)]
  exact ⟨rfl, Function.update_same _ _ _⟩

/-- A run that stops before `rename` leaves `output_exec` as it was, unless `mkstemp` picked that
very name. -/
theorem shivaPrelink_output_of_stop (ht : sys.tmpName ≠ some ctx.outputExec) :
    (shivaPrelink lib sys ctx obj fs).2 ctx.outputExec = fs ctx.outputExec ∨
      ∃ rw st t fs₁, prelinkRewrite lib sys ctx obj = some rw ∧ statFile sys fs obj.path = some st ∧
        mkstemp sys fs = some (t, fs₁) ∧ (∀ c ∈ outputChunks sys ctx obj.mem.length rw, Writable sys c) ∧
        sys.fchownFails = false ∧ sys.fchmodFails = false ∧ sys.allocFails .targetPath = false := by
  unfold shivaPrelink
  split
  · exact .inl rfl
  next rw hrw =>
  split
  · exact .inl rfl
  next st hst =>
  split
  · exact .inl rfl
  next t fs₁ hmk =>
  obtain ⟨htn, -, rfl⟩ := mkstemp_eq_some hmk
  have hot : ctx.outputExec ≠ t := by rintro h; exact ht (h ▸ htn)
  have hw := writeChunks_frame sys t hot (outputChunks sys ctx obj.mem.length rw)
    (Function.update fs t (some ⟨[], 0, 0, 0o600⟩))
  rw [Function.update_noteq hot] at hw
  split
  · next fs₂ hfs₂ => rw [hfs₂] at hw; exact .inl hw
  · next fs₂ hfs₂ =>
    rw [hfs₂] at hw
    dsimp only
    split_ifs with h₁ h₂ h₃
    · exact .inl hw
    · exact .inl (by simpa only [chown, Function.update_noteq hot] using hw)
    · exact .inl (by simpa only [chmod, chown, Function.update_noteq hot] using hw)
    · exact .inr ⟨rw, st, t, _, hrw, hst, hmk, writable_of_writeChunks _ _ _ _ (by rw [hfs₂]),
        by simpa using h₁, by simpa using h₂, by simpa using h₃⟩

end Commit

section Sample

set_option maxRecDepth 10000

/-- As `sampleCtx`, with the interpreter path `/lib/ld`, longer than the sample's `/ld`. -/
def longCtx : PrelinkCtx :=
  { sampleCtx with interpPath := ⟨[0x2f, 0x6c, 0x69, 0x62, 0x2f, 0x6c, 0x64], by decide, by decide⟩ }

theorem long_interp_committed :
    ∃ rw, prelinkRewrite sampleLib sampleSys longCtx sampleObj = some rw ∧ rw.orig.len < longCtx.interpPath.len ∧
      (shivaPrelink sampleLib sampleSys longCtx sampleObj sampleFs).1 = some false ∧
      (shivaPrelink sampleLib sampleSys longCtx sampleObj sampleFs).2 longCtx.outputExec =
        some ⟨signed (outputImage sampleSys longCtx sampleObj.mem.length rw), 1000, 1000, 0o755⟩ := by
  have hfacts : (prelinkRewrite sampleLib sampleSys longCtx sampleObj).map
      (fun rw => (rw.newSegment.offset, rw.copy.oldDynamicSize, rw.orig.len, rw.mem.length)) =
      some (464, 32, 3, 460) := by decide
  obtain ⟨rw, hrw, hf⟩ := Option.map_eq_some'.mp hfacts
  simp only [Prod.mk.injEq] at hf
  obtain ⟨h₁, h₂, h₃, h₄⟩ := hf
  have hlen : (outputImage sampleSys longCtx sampleObj.mem.length rw).length < addrSpace := by
    rw [length_outputImage, h₁, h₂, h₃, h₄]; decide
  have hshort : rw.orig.len < longCtx.interpPath.len := by rw [h₃]; decide
  refine ⟨rw, hrw, hshort, ?_⟩
  have hst : statFile sampleSys sampleFs sampleObj.path = some ⟨sampleImage, 1000, 1000, 0o755⟩ := rfl
  exact shivaPrelink_of_short_interp hrw sample_laid hst rfl (writable_outputChunks (fun _ => rfl) hlen)
    rfl rfl rfl rfl ⟨hlen, rfl⟩ hshort

/-- Two runs of the sample that commit the wrong file. With `interp_path = /lib/ld` the run
returns `false`, yet `a.shiva`, absent before, now holds the 555-byte output. When `rename` fails
the run returns `true`, yet `a.shiva` still holds the 460-byte older file, now signed. -/
theorem output_commit_diverges :
    ((shivaPrelink sampleLib sampleSys longCtx sampleObj sampleFs).1 = some false ∧
      sampleFs longCtx.outputExec = none ∧
      ((shivaPrelink sampleLib sampleSys longCtx sampleObj sampleFs).2 longCtx.outputExec).map
        (·.data.length) = some 555) ∧
    ((shivaPrelink sampleLib staleSys sampleCtx sampleObj staleFs).1 = some true ∧
      ((shivaPrelink sampleLib staleSys sampleCtx sampleObj staleFs).2 sampleCtx.outputExec).map (·.data) =
        some (writeBytes (signed staleImage) 344 sampleCtx.interpPath.withNul)) := by
  decide

end Sample

end Shiva
