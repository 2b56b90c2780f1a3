import Shiva.Commit

/-!
# Which runs go through, and what a failed one leaves

What the header rewrite of `shiva_prelink` needs of its input, and what a run that stops after
`mkstemp` leaves in the temporary file.

* `noteStep_isSome`, `updateDynamicSection_isSome`: on a well-laid-out image the header writes
  never fail;
* **`prelinkRewrite_isSome_iff`**: the header rewrite goes through exactly when the input has a
  `PT_INTERP`, a `PT_NOTE` and a `PT_DYNAMIC` before it, and every `PT_DYNAMIC` before it can be
  copied; the `ELF_DYNAMIC_F` check never decides;
* `writeChunks_prefix`: the writes store a prefix of their bytes, whichever of them fails;
* **`tmp_prefix_or_renamed`**: the temporary file is removed only by a `rename` that went
  through; otherwise it stays, holding a prefix of the output;
* **`shivaPrelink_of_no_entries`**: with `elf_dtag_count` at `0`, the length of write 3 wraps
  below zero and no run produces an output;
* **`shivaPrelink_output_owner`**: a successful output has the input's owner, group and mode.
-/

namespace Shiva

/-! ## The header rewrite -/

/-- On a well-laid-out image, the `PT_NOTE` branch goes through once a `PT_DYNAMIC` was copied:
the two program headers it rewrites lie in the table. -/
theorem noteStep_isSome {obj : ElfObj} (hl : Laid obj.mem) {s : Scan} {c : DynCopy} {t : Nat}
    (ht : t < (header obj.mem).phnum) (hc : s.dynamic = some c) (hd : c.dynamicIndex < (header obj.mem).phnum) :
    (noteStep obj s t).isSome := by
  have hoff : OffHeader (phdrOffset obj.mem t) (nSegment obj s.lastLoad c).encode.length :=
    .inr (by unfold phdrOffset; have := hl.phdrs; omega)
  unfold noteStep
  rw [hc]
  simp only [elfSegmentModify, if_pos ht, Option.some_bind, header_writeBytes hoff, if_pos hd, Option.map_some',
    Option.isSome_some]

/-- The `.dynamic` update never fails: the header it rewrites is one the section loop found. -/
theorem updateDynamicSection_isSome (mem : List UInt8) (ns : NewSegment) : (updateDynamicSection mem ns).isSome := by
  unfold updateDynamicSection
  split
  · next i shdr h =>
    have hi := dynamicSection_lt mem i (by rw [h]; rfl)
    simp [elfSectionModify, hi]
  · rfl

section Rewrite

variable {lib : Libelf} {sys : Sys} {ctx : PrelinkCtx} {obj : ElfObj}

/-- **When the header rewrite goes through.** On a well-laid-out input, lines 153 to 299 of
`shiva_prelink` go through exactly when the input has a `PT_INTERP`, the `strdup` of its path goes
through, the input has a `PT_NOTE`, some `PT_DYNAMIC` comes before the first `PT_NOTE`, and every
`PT_DYNAMIC` before it can be copied, not only the last one, which is the one used. The
`ELF_DYNAMIC_F` check never decides the outcome. -/
theorem prelinkRewrite_isSome_iff (hl : Laid obj.mem) :
    (prelinkRewrite lib sys ctx obj).isSome ↔
      ∃ orig t, obj.interpreterPath = some orig ∧ sys.allocFails .origInterp = false ∧ noteSlot obj.mem = some t ∧
        (∃ j < t, (segmentAt obj.mem j).type = ptDynamic) ∧
        ∀ j < t, (segmentAt obj.mem j).type = ptDynamic →
          (dynCopy lib sys ctx obj orig j (segmentAt obj.mem j)).isSome := by
  have hpre : (segments obj.mem).takeWhile (·.2.type ≠ ptNote) = beforeNote obj.mem := rfl
  have hslot : ((segments obj.mem).find? (·.2.type = ptNote)).map (·.1) = noteSlot obj.mem := rfl
  constructor
  · intro h
    obtain ⟨rw, hrw⟩ := Option.isSome_iff_exists.mp h
    obtain ⟨horig, t, d, D, -, -, ht, hD, -⟩ := prelinkRewrite_spec hrw
    rw [beforeNote_eq ht] at hD
    obtain ⟨hdt, hDd, hDty, -⟩ := lastOfType_range hD
    dsimp only at hdt hDd hDty
    subst hDd
    unfold prelinkRewrite at hrw
    rw [horig] at hrw
    dsimp only at hrw
    split_ifs at hrw with hc
    obtain ⟨f, hf, -⟩ := Option.bind_eq_some.mp hrw
    rw [scanLoop_eq, hpre] at hf
    obtain ⟨s', hs', -⟩ := Option.bind_eq_some.mp hf
    have hall := (foldlM_scanStep_isSome lib sys ctx obj rw.orig _ _).mp (by rw [hs']; rfl)
    rw [beforeNote_eq ht] at hall
    refine ⟨rw.orig, t, horig, by simpa using (not_or.mp hc).1, ht, ⟨d, hdt, hDty⟩, fun j hj hjd => ?_⟩
    exact hall (j, segmentAt obj.mem j) (List.mem_map.mpr ⟨j, List.mem_range.mpr hj, rfl⟩) hjd
  · rintro ⟨orig, t, horig, halloc, ht, ⟨j, hjt, hj⟩, hcopy⟩
    have hbn := beforeNote_eq ht
    have htn := (noteSlot_spec ht).1
    have hall : ∀ x ∈ beforeNote obj.mem, x.2.type = ptDynamic → (dynCopy lib sys ctx obj orig x.1 x.2).isSome := by
      rw [hbn]
      intro x hx
      obtain ⟨i, hi, rfl⟩ := List.mem_map.mp hx
      exact hcopy i (List.mem_range.mp hi)
    obtain ⟨s', hs'⟩ := Option.isSome_iff_exists.mp
      ((foldlM_scanStep_isSome lib sys ctx obj orig _ (Scan.init sys)).mpr hall)
    obtain ⟨⟨d, D⟩, hD⟩ := Option.isSome_iff_exists.mp
      (show (lastOfType ptDynamic (beforeNote obj.mem)).isSome from hbn ▸ lastOfType_range_isSome hjt hj)
    have hdyn := dynamic_foldlM lib sys ctx obj orig _ _ _ hs'
    rw [hD] at hdyn
    rw [hbn] at hD
    obtain ⟨hdt, hDd, hDty, -⟩ := lastOfType_range hD
    dsimp only at hdt hDd hDty
    subst hDd
    obtain ⟨c, hc⟩ := Option.isSome_iff_exists.mp (hcopy d hdt hDty)
    have hidx := (dynCopy_eq_some lib sys ctx obj orig hc).2.2.2.2.1
    obtain ⟨found, hfound⟩ := Option.isSome_iff_exists.mp
      (noteStep_isSome hl htn (hdyn.trans hc) (by rw [hidx]; omega))
    have hel : elfDynamic obj.mem = true :=
      List.any_eq_true.mpr ⟨(j, segmentAt obj.mem j),
        List.mem_map.mpr ⟨j, List.mem_range.mpr (by omega), rfl⟩, by simpa using hj⟩
    unfold prelinkRewrite
    rw [horig]
    dsimp only
    rw [if_neg (by simp [halloc, hel]), scanLoop_eq, hpre, hs', hslot, ht]
    simp only [Option.some_bind, hfound, Option.isSome_map', updateDynamicSection_isSome]

theorem sample_rewrite_isSome_iff :
    Laid sampleObj.mem ∧
      ((prelinkRewrite sampleLib sampleSys sampleCtx sampleObj).isSome ↔
        ∃ orig t, sampleObj.interpreterPath = some orig ∧ sampleSys.allocFails .origInterp = false ∧
          noteSlot sampleObj.mem = some t ∧ (∃ j < t, (segmentAt sampleObj.mem j).type = ptDynamic) ∧
          ∀ j < t, (segmentAt sampleObj.mem j).type = ptDynamic →
            (dynCopy sampleLib sampleSys sampleCtx sampleObj orig j (segmentAt sampleObj.mem j)).isSome) :=
  ⟨sample_laid, prelinkRewrite_isSome_iff sample_laid⟩

end Rewrite

/-! ## The temporary file -/

/-- The writes append to the file at `t` a prefix of their bytes, whichever of them fails. -/
theorem writeChunks_prefix (sys : Sys) (t : String) :
    ∀ (cs : List (Nat × List UInt8)) (fs : Fs),
      ∃ pre, pre <+: (cs.map (·.2)).flatten ∧ (writeChunks sys t cs fs).2 = appendFile fs t pre
  | [], fs => ⟨[], List.nil_prefix, (appendFile_nil fs t).symm⟩
  | (n, bs) :: rest, fs => by
    simp only [writeChunks]
    split_ifs
    · exact ⟨[], List.nil_prefix, (appendFile_nil fs t).symm⟩
    · obtain ⟨pre, hpre, heq⟩ := writeChunks_prefix sys t rest (appendFile fs t bs)
      exact ⟨bs ++ pre, by simpa using hpre, by rw [heq, appendFile_append]⟩

section Tmp

variable {lib : Libelf} {sys : Sys} {ctx : PrelinkCtx} {obj : ElfObj} {fs : Fs}

/-- **A failed run leaves its temporary file behind.** After a run whose header rewrite and `stat`
went through and whose `mkstemp` created `t`, other than `output_exec`: either the file `t` is
gone, and then every write, `fchown`, `fchmod`, the `strdup` of the target path and `rename` went
through; or it is still there, holding a prefix of the output's bytes. -/
theorem tmp_prefix_or_renamed {rw : Rewrite} {st : File} {t : String} {fs₁ : Fs}
    (hrw : prelinkRewrite lib sys ctx obj = some rw) (hst : statFile sys fs obj.path = some st)
    (hmk : mkstemp sys fs = some (t, fs₁)) (hto : t ≠ ctx.outputExec)
    (_hwhole : WritesWhole sys ctx obj.mem.length rw) :
    ((shivaPrelink lib sys ctx obj fs).2 t = none ∧ (∀ c ∈ outputChunks sys ctx obj.mem.length rw, Writable sys c) ∧
        sys.fchownFails = false ∧ sys.fchmodFails = false ∧ sys.allocFails .targetPath = false ∧
        sys.renameFails = false) ∨
      ∃ g, (shivaPrelink lib sys ctx obj fs).2 t = some g ∧ g.data <+: outputImage sys ctx obj.mem.length rw := by
  obtain ⟨-, -, rfl⟩ := mkstemp_eq_some hmk
  have hfresh : ∀ d, appendFile (Function.update fs t (some ⟨[], 0, 0, 0o600⟩)) t d t = some ⟨d, 0, 0, 0o600⟩ := by
    intro d; simp [appendFile]
  obtain ⟨pre, hpre, hw⟩ := writeChunks_prefix sys t (outputChunks sys ctx obj.mem.length rw)
    (Function.update fs t (some ⟨[], 0, 0, 0o600⟩))
  unfold shivaPrelink
  rw [hrw, hst, hmk]
  dsimp only
  cases hwc : writeChunks sys t (outputChunks sys ctx obj.mem.length rw) (Function.update fs t (some ⟨[], 0, 0, 0o600⟩))
    with
  | mk b fs₂ =>
  rw [hwc] at hw
  cases b
  · refine .inr ⟨⟨pre, 0, 0, 0o600⟩, ?_, hpre⟩
    show fs₂ t = _
    rw [show fs₂ = _ from hw, hfresh]
  · have hall := writable_of_writeChunks _ _ _ _ (by rw [hwc])
    rw [writeChunks_eq _ _ _ _ hall] at hwc
    obtain rfl : fs₂ = _ := (Prod.mk.inj hwc).2.symm
    dsimp only
    split_ifs with h₁ h₂ h₃
    · exact .inr ⟨_, hfresh _, List.prefix_refl _⟩
    · exact .inr ⟨_, by simp only [chown, Function.update_same, hfresh]; rfl, List.prefix_refl _⟩
    · exact .inr ⟨_, by simp only [chmod, chown, Function.update_same, hfresh]; rfl, List.prefix_refl _⟩
    · simp only [Bool.not_eq_true] at h₁ h₂ h₃
      have hstaged : chmod (chown (appendFile (Function.update fs t (some ⟨[], 0, 0, 0o600⟩)) t
          ((outputChunks sys ctx obj.mem.length rw).map (·.2)).flatten) t st.uid st.gid) t st.mode t =
          some ⟨outputImage sys ctx obj.mem.length rw, st.uid, st.gid, st.mode⟩ := by
        simp only [chmod, chown, Function.update_same, hfresh, Option.map_some']
        rfl
      rw [finish_frame hto]
      cases hr : sys.renameFails
      · exact .inl ⟨rename_src hr (by rw [hstaged]; rfl) hto, hall, h₁, h₂, h₃, rfl⟩
      · refine .inr ⟨⟨outputImage sys ctx obj.mem.length rw, st.uid, st.gid, st.mode⟩, ?_, List.prefix_refl _⟩
        rw [rename, if_pos (Or.inl hr), hstaged]

set_option maxRecDepth 10000 in
theorem sample_tmp_renamed :
    ∃ rw, prelinkRewrite sampleLib sampleSys sampleCtx sampleObj = some rw ∧
      statFile sampleSys sampleFs sampleObj.path = some ⟨sampleImage, 1000, 1000, 0o755⟩ ∧
      mkstemp sampleSys sampleFs =
        some ("/tmp/elf.A", Function.update sampleFs "/tmp/elf.A" (some ⟨[], 0, 0, 0o600⟩)) ∧
      "/tmp/elf.A" ≠ sampleCtx.outputExec ∧ WritesWhole sampleSys sampleCtx sampleObj.mem.length rw ∧
      (((shivaPrelink sampleLib sampleSys sampleCtx sampleObj sampleFs).2 "/tmp/elf.A" = none ∧
          (∀ c ∈ outputChunks sampleSys sampleCtx sampleObj.mem.length rw, Writable sampleSys c) ∧
          sampleSys.fchownFails = false ∧ sampleSys.fchmodFails = false ∧
          sampleSys.allocFails .targetPath = false ∧ sampleSys.renameFails = false) ∨
        ∃ g, (shivaPrelink sampleLib sampleSys sampleCtx sampleObj sampleFs).2 "/tmp/elf.A" = some g ∧
          g.data <+: outputImage sampleSys sampleCtx sampleObj.mem.length rw) := by
  obtain ⟨rw, hrw⟩ := Option.isSome_iff_exists.mp
    (show (prelinkRewrite sampleLib sampleSys sampleCtx sampleObj).isSome by decide)
  have hwhole := sample_writesWhole rw hrw
  exact ⟨rw, hrw, rfl, rfl, by decide, hwhole, tmp_prefix_or_renamed hrw rfl rfl (by decide) hwhole⟩

end Tmp

/-! ## Edges of the write-out -/

section Edges

variable {lib : Libelf} {sys : Sys} {ctx : PrelinkCtx} {obj : ElfObj} {fs : Fs}

/-- With no dynamic entries counted, write 3 asks for `0 - 16` bytes as a `size_t`. -/
theorem not_writable_of_no_entries (h0 : lib.dtagCount obj.mem = 0) {rw : Rewrite}
    (hrw : prelinkRewrite lib sys ctx obj = some rw) :
    ¬ ∀ c ∈ outputChunks sys ctx obj.mem.length rw, Writable sys c := by
  intro hw
  obtain ⟨-, t, d, D, -, -, -, -, hc, -⟩ := prelinkRewrite_spec hrw
  have hsize := (dynCopy_eq_some lib sys ctx obj rw.orig hc).2.2.2.1
  rw [h0] at hsize
  have hmem : (3, (List.range ((rw.copy.oldDynamicSize + u64 - dynEntSize) % u64)).map rw.copy.oldDynamicSegment) ∈
      outputChunks sys ctx obj.mem.length rw := by
    simp [outputChunks]
  have h3 := (hw _ hmem).2
  dsimp only at h3
  rw [List.length_map, List.length_range, hsize, zero_mul, Nat.zero_mod, zero_add] at h3
  exact absurd h3 (by unfold u64 addrSpace dynEntSize; omega)

/-- **No entries, no output.** When `elf_dtag_count` returns `0`, the length
`old_dynamic_size - sizeof(ElfW(Dyn))` of write 3 wraps to `2 ^ 64 - 16`: every run returns
`false` and, unless `mkstemp` picks `output_exec` itself, leaves `output_exec` as it was. -/
theorem shivaPrelink_of_no_entries (h0 : lib.dtagCount obj.mem = 0) (ht : sys.tmpName ≠ some ctx.outputExec) :
    (shivaPrelink lib sys ctx obj fs).1 = some false ∧
      (shivaPrelink lib sys ctx obj fs).2 ctx.outputExec = fs ctx.outputExec := by
  refine ⟨?_, ?_⟩
  · unfold shivaPrelink
    split
    · rfl
    next rw hrw =>
    split
    · rfl
    split
    · rfl
    next t fs₁ _ =>
    cases hwc : writeChunks sys t (outputChunks sys ctx obj.mem.length rw) fs₁ with
    | mk b fs₂ =>
    cases b
    · rfl
    · exact absurd (writable_of_writeChunks _ _ _ _ (by rw [hwc])) (not_writable_of_no_entries h0 hrw)
  · rcases shivaPrelink_output_of_stop ht with hs | ⟨rw, -, -, -, hrw, -, -, hw, -⟩
    · exact hs
    · exact absurd hw (not_writable_of_no_entries h0 hrw)

theorem zero_count_no_output :
    (⟨fun _ => true, fun _ => 0⟩ : Libelf).dtagCount sampleObj.mem = 0 ∧ sampleSys.tmpName ≠ some sampleCtx.outputExec ∧
      (shivaPrelink ⟨fun _ => true, fun _ => 0⟩ sampleSys sampleCtx sampleObj sampleFs).1 = some false ∧
      (shivaPrelink ⟨fun _ => true, fun _ => 0⟩ sampleSys sampleCtx sampleObj sampleFs).2 sampleCtx.outputExec =
        sampleFs sampleCtx.outputExec :=
  ⟨rfl, by decide, shivaPrelink_of_no_entries rfl (by decide)⟩

/-- **The output keeps the input's owner, group and mode.** After a run that returns `true`, with a
`rename` that went through, the file at `output_exec` has the owner, group and mode `stat` found on
the input, set by `fchown` and `fchmod` on the temporary file. -/
theorem shivaPrelink_output_owner (h : (shivaPrelink lib sys ctx obj fs).1 = some true)
    (hr : sys.renameFails = false) :
    ∃ g f, fs obj.path = some g ∧ (shivaPrelink lib sys ctx obj fs).2 ctx.outputExec = some f ∧
      f.uid = g.uid ∧ f.gid = g.gid ∧ f.mode = g.mode := by
  obtain ⟨rw, st, t, fs₁, hrw, hst, hmk, hw, hown, hmod, halloc⟩ := shivaPrelink_steps h
  have hg : fs obj.path = some st := by
    unfold statFile at hst
    split_ifs at hst
    exact hst
  rw [shivaPrelink_of_steps hrw hst hmk hw hown hmod halloc] at h ⊢
  obtain ⟨f, p, hf, -, -, -, -, hfs⟩ := finish_eq_true h
  rw [rename_dst hr (by rw [stage_mkstemp hmk]; rfl), stage_mkstemp hmk] at hf
  cases hf
  have hout := congrFun hfs ctx.outputExec
  rw [Function.update_same] at hout
  exact ⟨st, _, hg, hout, rfl, rfl, rfl⟩

theorem sample_output_owner :
    (shivaPrelink sampleLib sampleSys sampleCtx sampleObj sampleFs).1 = some true ∧ sampleSys.renameFails = false ∧
      ∃ g f, sampleFs sampleObj.path = some g ∧
        (shivaPrelink sampleLib sampleSys sampleCtx sampleObj sampleFs).2 sampleCtx.outputExec = some f ∧
        f.uid = g.uid ∧ f.gid = g.gid ∧ f.mode = g.mode :=
  ⟨sample_run, rfl, shivaPrelink_output_owner sample_run rfl⟩

end Edges

end Shiva
