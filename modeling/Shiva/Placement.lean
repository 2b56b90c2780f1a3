import Shiva.Image

/-!
# Where the new `PT_LOAD` goes

The new `PT_LOAD` takes the slot of the first `PT_NOTE`. `last_load_align` is hard-wired to 4096,
so after a `PT_LOAD` the segment starts on the next page past that `PT_LOAD`'s end in memory, and
on the next page past the end of the image in the file. Without a `PT_LOAD` before the note the
locals are read uninitialised.

* `LoadsOrdered`, `LoadsRise`: the `PT_LOAD`s of an image in header order, as the ELF ABI asks
  for them, and as the output keeps them;
* `lastLoadOf_of_load`, `lastLoadOf_of_last`, `lastLoadOf_of_no_load`: the locals after a
  `PT_LOAD` before the note, and without one;
* **`newLoad_placement`**: when every `PT_LOAD` of the input comes before its first `PT_NOTE`,
  the output's `PT_LOAD`s still rise, and the new one is page-aligned past every original
  `PT_LOAD` and past the image;
* `newLoad_of_no_load`, `newLoad_wraps`: without a `PT_LOAD` before the note the new one is
  placed by uninitialised locals, and after a `PT_LOAD` that ends in the last page below `2 ^ 64`
  it is placed at address 0.
-/

namespace Shiva

/-- The `PT_LOAD`s of `mem` rise in header order and do not overlap: each ends at or below the
start of the next one. -/
def LoadsOrdered (mem : List UInt8) : Prop :=
  ∀ j < (header mem).phnum, ∀ i < j, (segmentAt mem i).type = ptLoad → (segmentAt mem j).type = ptLoad →
    (segmentAt mem i).vaddr < (segmentAt mem j).vaddr ∧
      (segmentAt mem i).vaddr + (segmentAt mem i).memsz ≤ (segmentAt mem j).vaddr

instance (mem : List UInt8) : Decidable (LoadsOrdered mem) :=
  inferInstanceAs (Decidable (∀ j < (header mem).phnum, ∀ i < j, (segmentAt mem i).type = ptLoad →
    (segmentAt mem j).type = ptLoad → (segmentAt mem i).vaddr < (segmentAt mem j).vaddr ∧
      (segmentAt mem i).vaddr + (segmentAt mem i).memsz ≤ (segmentAt mem j).vaddr))

/-- The `PT_LOAD`s of `mem` rise strictly in header order. -/
def LoadsRise (mem : List UInt8) : Prop :=
  ∀ j < (header mem).phnum, ∀ i < j, (segmentAt mem i).type = ptLoad → (segmentAt mem j).type = ptLoad →
    (segmentAt mem i).vaddr < (segmentAt mem j).vaddr

/-- After a `PT_LOAD` before the note, the locals hold the last one's `p_vaddr` and `p_memsz`,
and 4096. -/
theorem lastLoadOf_of_load {mem : List UInt8} {t : Nat} (ht : noteSlot mem = some t) {i : Nat} (hi : i < t)
    (hty : (segmentAt mem i).type = ptLoad) (init : LastLoad) :
    ∃ l, l < t ∧ (segmentAt mem l).type = ptLoad ∧ (∀ j, l < j → j < t → (segmentAt mem j).type ≠ ptLoad) ∧
      lastLoadOf init (beforeNote mem) = ⟨(segmentAt mem l).vaddr, (segmentAt mem l).memsz, 4096⟩ := by
  rw [beforeNote_eq ht]
  obtain ⟨⟨l, L⟩, hx⟩ := Option.isSome_iff_exists.mp (lastOfType_range_isSome hi hty)
  obtain ⟨hl, hLe, hL, hlast⟩ := lastOfType_range hx
  dsimp only at hl hLe hL hlast
  subst hLe
  exact ⟨l, hl, hL, hlast, by rw [lastLoadOf, hx]⟩

/-- After a `PT_LOAD` at `l` before the note, with no `PT_LOAD` between it and the note, the locals
hold that `PT_LOAD`'s `p_vaddr` and `p_memsz`, and 4096. -/
theorem lastLoadOf_of_last {mem : List UInt8} {t : Nat} (ht : noteSlot mem = some t) {l : Nat} (hl : l < t)
    (hL : (segmentAt mem l).type = ptLoad) (hlast : ∀ j, l < j → j < t → (segmentAt mem j).type ≠ ptLoad)
    (init : LastLoad) :
    lastLoadOf init (beforeNote mem) = ⟨(segmentAt mem l).vaddr, (segmentAt mem l).memsz, 4096⟩ := by
  obtain ⟨l', hl', hL', hlast', hll⟩ := lastLoadOf_of_load ht hl hL init
  obtain rfl : l' = l := by
    rcases lt_trichotomy l' l with h | h | h
    · exact absurd hL (hlast' l h hl)
    · exact h
    · exact absurd hL' (hlast l' h hl')
  exact hll

/-- Without a `PT_LOAD` before the note, the locals keep what they held on entry. -/
theorem lastLoadOf_of_no_load {mem : List UInt8} {t : Nat} (ht : noteSlot mem = some t)
    (hno : ∀ i < t, (segmentAt mem i).type ≠ ptLoad) (init : LastLoad) : lastLoadOf init (beforeNote mem) = init := by
  unfold lastLoadOf
  split
  · next i p hx =>
    rw [beforeNote_eq ht] at hx
    obtain ⟨hi, hp, hty, -⟩ := lastOfType_range hx
    rw [hp] at hty
    exact absurd hty (hno i hi)
  · rfl

section Placement

variable {lib : Libelf} {sys : Sys} {ctx : PrelinkCtx} {obj : ElfObj} {fs : Fs}

/-- **The new `PT_LOAD` is placed past the input.** Take a run that returns `true` on a
well-laid-out input, with a `rename` that went through, whose `PT_LOAD`s are ordered, none after
the first `PT_NOTE` `t`, and whose last `PT_LOAD` `l` before `t` is not empty and ends a page below
`2 ^ 64`. Then the output's `PT_LOAD`s still rise in header order; the new one, at `t`, has
`p_vaddr` and `p_offset` on 4096-byte pages and `p_align = 4096`, starts at or after the end of
every original `PT_LOAD`, and its bytes start at or after the end of the input. -/
theorem newLoad_placement (h : (shivaPrelink lib sys ctx obj fs).1 = some true)
    (hr : sys.renameFails = false) (hl : Laid obj.mem) (hord : LoadsOrdered obj.mem)
    {t : Nat} (ht : noteSlot obj.mem = some t) {l : Nat} (hlt : l < t) (hL : (segmentAt obj.mem l).type = ptLoad)
    (hlast : ∀ j, l < j → j < t → (segmentAt obj.mem j).type ≠ ptLoad) (hpos : 0 < (segmentAt obj.mem l).memsz)
    (hwrap : (segmentAt obj.mem l).vaddr + (segmentAt obj.mem l).memsz + 4096 ≤ u64)
    (hafter : ∀ j, t < j → j < (header obj.mem).phnum → (segmentAt obj.mem j).type ≠ ptLoad) :
    ∃ f, (shivaPrelink lib sys ctx obj fs).2 ctx.outputExec = some f ∧
      (header f.data).phnum = (header obj.mem).phnum ∧ LoadsRise f.data ∧
      (segmentAt f.data t).type = ptLoad ∧ 4096 ∣ (segmentAt f.data t).vaddr ∧
      4096 ∣ (segmentAt f.data t).offset ∧ (segmentAt f.data t).align = 4096 ∧
      (∀ i < (header obj.mem).phnum, (segmentAt obj.mem i).type = ptLoad →
        (segmentAt obj.mem i).vaddr + (segmentAt obj.mem i).memsz ≤ (segmentAt f.data t).vaddr) ∧
      obj.mem.length ≤ (segmentAt f.data t).offset := by
  obtain ⟨rw, t', d, f, ht', -, hdt, -, hf, hhead, -, hseg⟩ := shivaPrelink_headers h hr hl
  obtain rfl : t = t' := Option.some.inj (ht.symm.trans ht')
  obtain ⟨htn, hnote, -⟩ := noteSlot_spec ht
  have hll := lastLoadOf_of_last ht hlt hL hlast (Scan.init sys).lastLoad
  have hT : segmentAt f.data t = nSegment obj (lastLoadOf (Scan.init sys).lastLoad (beforeNote obj.mem)) rw.copy := by
    rw [hseg t htn, if_neg (by omega), if_pos rfl]
  have hd : (segmentAt f.data d).type = ptDynamic := by rw [hseg d (by omega), if_pos rfl]; rfl
  -- the new segment's addresses, from the last `PT_LOAD` before the note
  have hv := (le_elfPageAlign hwrap).1
  have ho := (le_elfPageAlign (show obj.mem.length + 4096 ≤ u64 by
    have := obj.size_lt; unfold addrSpace u64 at *; omega)).1
  -- every original `PT_LOAD` is one of `l` and those before it
  have hle : ∀ i < (header obj.mem).phnum, (segmentAt obj.mem i).type = ptLoad → i ≤ l := by
    intro i hi hty
    by_contra hil
    rcases lt_trichotomy i t with hit | rfl | hit
    · exact hlast i (by omega) hit hty
    · exact absurd (hnote.symm.trans hty) (by decide)
    · exact hafter i hit hi hty
  have hend : ∀ i < (header obj.mem).phnum, (segmentAt obj.mem i).type = ptLoad →
      (segmentAt obj.mem i).vaddr + (segmentAt obj.mem i).memsz ≤ (segmentAt f.data t).vaddr := by
    intro i hi hty
    rw [hT, nSegment, hll]
    rcases (hle i hi hty).lt_or_eq with hil | rfl
    · have := (hord l (by omega) i hil hty hL).2
      dsimp only at hv ⊢; omega
    · exact hv
  -- a `PT_LOAD` of the output is the new one or an original `PT_LOAD` left in place
  have hload' : ∀ j < (header obj.mem).phnum, (segmentAt f.data j).type = ptLoad →
      j = t ∨ (j ≠ t ∧ segmentAt f.data j = segmentAt obj.mem j ∧ (segmentAt obj.mem j).type = ptLoad) := by
    intro j hj hty
    by_cases hjt : j = t
    · exact .inl hjt
    · have hjd : j ≠ d := fun hjd => by rw [hjd, hd] at hty; exact absurd hty (by decide)
      rw [hseg j hj, if_neg hjd, if_neg hjt] at hty
      exact .inr ⟨hjt, by rw [hseg j hj, if_neg hjd, if_neg hjt], hty⟩
  refine ⟨f, hf, by rw [hhead], ?_, by rw [hT]; rfl, by rw [hT, nSegment, hll]; exact elfPageAlign_dvd _,
    by rw [hT, nSegment, hll]; exact elfPageAlign_dvd _, by rw [hT, nSegment, hll], hend,
    by rw [hT, nSegment, hll]; exact ho⟩
  intro j hj i hij hi hj'
  rw [hhead] at hj
  rcases hload' j hj hj' with rfl | ⟨hjt, hJ, hJty⟩ <;> rcases hload' i (by omega) hi with rfl | ⟨hit, hI, hIty⟩
  · omega
  · -- an original `PT_LOAD` below the new one: `l` is not empty, and those before it start below it
    rw [hI]
    have hlend := hend l (by omega) hL
    rcases (hle i (by omega) hIty).lt_or_eq with hil | rfl
    · have := (hord l (by omega) i hil hIty hL).1
      omega
    · omega
  · exact absurd hJty (hafter j (by omega) hj)
  · rw [hI, hJ]
    exact (hord j hj i hij hIty hJty).1

/-- `loadImage` with its `PT_LOAD` split in two at the `PT_INTERP` string, the second a page up
with `PT_INTERP` and `PT_DYNAMIC` in it, and one `PT_NOTE`: two `PT_LOAD`s come before the note,
and the new segment goes to the page past the second, 8192. -/
def twoLoadImage : List UInt8 :=
  ([0x7f, 0x45, 0x4c, 0x46, 2, 1, 1, 0] ++ List.replicate 8 0 ++ leBytes 2 2 ++ leBytes 2 62 ++
    leBytes 4 1 ++ leBytes 8 0 ++ leBytes 8 64 ++ leBytes 8 396 ++ leBytes 4 0 ++ leBytes 2 64 ++
    leBytes 2 56 ++ leBytes 2 5 ++ leBytes 2 64 ++ leBytes 2 1 ++ leBytes 2 0) ++
  ElfSegment.encode ⟨ptLoad, 5, 0, 0, 0, 344, 344, 4096⟩ ++
  ElfSegment.encode ⟨ptLoad, 6, 344, 4440, 4440, 116, 116, 4096⟩ ++
  ElfSegment.encode ⟨ptInterp, 4, 344, 4440, 4440, 4, 4, 1⟩ ++
  ElfSegment.encode ⟨ptDynamic, 6, 348, 4444, 4444, 48, 48, 8⟩ ++
  ElfSegment.encode ⟨ptNote, 4, 0, 0, 0, 0, 0, 4⟩ ++
  [0x2f, 0x6c, 0x64, 0] ++
  ElfDyn.encode ⟨1, 1⟩ ++ ElfDyn.encode ⟨0, 0⟩ ++ ElfDyn.encode ⟨0, 0⟩ ++
  ElfSection.encode ⟨0, shtDynamic, 3, 4444, 348, 48, 0, 0, 8, 16⟩

set_option maxRecDepth 10000 in
theorem length_twoLoadImage : twoLoadImage.length = 460 := by decide

def twoLoadObj : ElfObj := ⟨"a.out", twoLoadImage, by rw [length_twoLoadImage]; decide⟩

def twoLoadFs : Fs := fun p => if p = "a.out" then some ⟨twoLoadImage, 1000, 1000, 0o755⟩ else none

set_option maxRecDepth 10000 in
theorem twoLoad_laid : Laid twoLoadImage := by
  refine ⟨by decide, by decide, by decide, fun p hp => ?_⟩
  obtain rfl : p = ⟨ptInterp, 4, 344, 4440, 4440, 4, 4, 1⟩ :=
    Option.some.inj (hp.symm.trans (by decide))
  unfold InterpLaid
  decide

set_option maxRecDepth 10000 in
theorem twoLoad_run : (shivaPrelink sampleLib sampleSys sampleCtx twoLoadObj twoLoadFs).1 = some true :=
  sample_run_of rfl twoLoad_laid rfl rfl (show _ = some (4096, 32, 3, 460) by decide) (by decide) (by decide)

set_option maxRecDepth 10000 in
theorem twoLoad_newLoad_placement :
    (shivaPrelink sampleLib sampleSys sampleCtx twoLoadObj twoLoadFs).1 = some true ∧
      sampleSys.renameFails = false ∧ Laid twoLoadObj.mem ∧ LoadsOrdered twoLoadObj.mem ∧
      noteSlot twoLoadObj.mem = some 4 ∧ (segmentAt twoLoadObj.mem 1).type = ptLoad ∧
      (∀ j, 1 < j → j < 4 → (segmentAt twoLoadObj.mem j).type ≠ ptLoad) ∧
      0 < (segmentAt twoLoadObj.mem 1).memsz ∧
      (segmentAt twoLoadObj.mem 1).vaddr + (segmentAt twoLoadObj.mem 1).memsz + 4096 ≤ u64 ∧
      (∀ j, 4 < j → j < (header twoLoadObj.mem).phnum → (segmentAt twoLoadObj.mem j).type ≠ ptLoad) ∧
      ∃ f, (shivaPrelink sampleLib sampleSys sampleCtx twoLoadObj twoLoadFs).2 sampleCtx.outputExec = some f ∧
        (header f.data).phnum = (header twoLoadObj.mem).phnum ∧ LoadsRise f.data ∧
        (segmentAt f.data 4).type = ptLoad ∧ 4096 ∣ (segmentAt f.data 4).vaddr ∧
        4096 ∣ (segmentAt f.data 4).offset ∧ (segmentAt f.data 4).align = 4096 ∧
        (∀ i < (header twoLoadObj.mem).phnum, (segmentAt twoLoadObj.mem i).type = ptLoad →
          (segmentAt twoLoadObj.mem i).vaddr + (segmentAt twoLoadObj.mem i).memsz ≤ (segmentAt f.data 4).vaddr) ∧
        twoLoadObj.mem.length ≤ (segmentAt f.data 4).offset := by
  have hphnum : (header twoLoadObj.mem).phnum = 5 := by decide
  have hlast : ∀ j, 1 < j → j < 4 → (segmentAt twoLoadObj.mem j).type ≠ ptLoad := by
    intro j h₁ h₂
    obtain rfl | rfl : j = 2 ∨ j = 3 := by omega
    all_goals decide
  have hafter : ∀ j, 4 < j → j < (header twoLoadObj.mem).phnum → (segmentAt twoLoadObj.mem j).type ≠ ptLoad :=
    fun j h₁ h₂ => absurd h₂ (by omega)
  have ht : noteSlot twoLoadObj.mem = some 4 := by decide
  exact ⟨twoLoad_run, rfl, twoLoad_laid, by decide, ht, by decide, hlast, by decide, by decide, hafter,
    newLoad_placement twoLoad_run rfl twoLoad_laid (by decide) ht (by decide) (by decide) hlast (by decide)
      (by decide) hafter⟩

set_option maxRecDepth 10000 in
/-- On the sample, whose only `PT_LOAD` comes after its `PT_NOTE`s, the run returns `true`, but
the new `PT_LOAD` at header 2 sits at `0x1000`, above the `PT_LOAD` at header 4, and its
`p_align` is the uninitialised `last_load_align`, 8. -/
theorem newLoad_placement_fails_after_note :
    (shivaPrelink sampleLib sampleSys sampleCtx sampleObj sampleFs).1 = some true ∧
      sampleSys.renameFails = false ∧ Laid sampleObj.mem ∧ LoadsOrdered sampleObj.mem ∧
      noteSlot sampleObj.mem = some 2 ∧
      ¬ ∃ f, (shivaPrelink sampleLib sampleSys sampleCtx sampleObj sampleFs).2 sampleCtx.outputExec = some f ∧
        (LoadsRise f.data ∨ (segmentAt f.data 2).align = 4096) := by
  have hout : ((shivaPrelink sampleLib sampleSys sampleCtx sampleObj sampleFs).2 "a.shiva").map
      (fun f => ((header f.data).phnum, (segmentAt f.data 2).type, (segmentAt f.data 2).vaddr,
        (segmentAt f.data 4).type, (segmentAt f.data 4).vaddr, (segmentAt f.data 2).align)) =
      some (5, ptLoad, 0x1000, ptLoad, 0, 8) := by decide
  refine ⟨sample_run, rfl, sample_laid, by decide, by decide, ?_⟩
  rintro ⟨f, hf, hbad⟩
  rw [show sampleCtx.outputExec = "a.shiva" from rfl] at hf
  rw [hf] at hout
  simp only [Option.map_some', Option.some.injEq, Prod.mk.injEq] at hout
  obtain ⟨hn, h₂, hv₂, h₄, hv₄, ha⟩ := hout
  rcases hbad with hrise | hbad
  · have := hrise 4 (by omega) 2 (by omega) h₂ h₄
    omega
  · omega

/-- **Without a `PT_LOAD` before the note, the new `PT_LOAD` is placed by uninitialised locals.**
After a run that returns `true` on a well-laid-out input, with a `rename` that went through, whose
first `PT_NOTE` `t` has no `PT_LOAD` before it, the new `PT_LOAD` at `t` takes its `p_vaddr`,
`p_offset` and `p_align` from whatever `last_load_vaddr`, `last_load_size` and `last_load_align`
held on entry to the loop. -/
theorem newLoad_of_no_load (h : (shivaPrelink lib sys ctx obj fs).1 = some true)
    (hr : sys.renameFails = false) (hl : Laid obj.mem) {t : Nat} (ht : noteSlot obj.mem = some t)
    (hno : ∀ i < t, (segmentAt obj.mem i).type ≠ ptLoad) :
    ∃ f, (shivaPrelink lib sys ctx obj fs).2 ctx.outputExec = some f ∧ (segmentAt f.data t).type = ptLoad ∧
      (segmentAt f.data t).vaddr =
        elfPageAlign (sys.initLoadVaddr.toNat + sys.initLoadSize.toNat) sys.initLoadAlign.toNat ∧
      (segmentAt f.data t).offset = elfPageAlign obj.mem.length sys.initLoadAlign.toNat ∧
      (segmentAt f.data t).align = sys.initLoadAlign.toNat := by
  obtain ⟨rw, t', d, f, ht', -, hdt, -, hf, -, -, hseg⟩ := shivaPrelink_headers h hr hl
  obtain rfl : t = t' := Option.some.inj (ht.symm.trans ht')
  have hT : segmentAt f.data t = nSegment obj (Scan.init sys).lastLoad rw.copy := by
    rw [hseg t (noteSlot_spec ht).1, if_neg (by omega), if_pos rfl, lastLoadOf_of_no_load ht hno]
  refine ⟨f, hf, ?_⟩
  rw [hT]
  exact ⟨rfl, rfl, rfl, rfl⟩

set_option maxRecDepth 10000 in
theorem sample_newLoad_of_no_load :
    (shivaPrelink sampleLib sampleSys sampleCtx sampleObj sampleFs).1 = some true ∧
      noteSlot sampleObj.mem = some 2 ∧ (∀ i < 2, (segmentAt sampleObj.mem i).type ≠ ptLoad) ∧
      ∃ f, (shivaPrelink sampleLib sampleSys sampleCtx sampleObj sampleFs).2 sampleCtx.outputExec = some f ∧
        (segmentAt f.data 2).type = ptLoad ∧
        (segmentAt f.data 2).vaddr =
          elfPageAlign (sampleSys.initLoadVaddr.toNat + sampleSys.initLoadSize.toNat) sampleSys.initLoadAlign.toNat ∧
        (segmentAt f.data 2).offset = elfPageAlign sampleObj.mem.length sampleSys.initLoadAlign.toNat ∧
        (segmentAt f.data 2).align = sampleSys.initLoadAlign.toNat := by
  have ht : noteSlot sampleObj.mem = some 2 := by decide
  have hno : ∀ i < 2, (segmentAt sampleObj.mem i).type ≠ ptLoad := by decide
  exact ⟨sample_run, ht, hno, newLoad_of_no_load sample_run rfl sample_laid ht hno⟩

/-- **A `PT_LOAD` that ends in the last page of the address space sends the new one to address 0.**
After a run that returns `true` on a well-laid-out input, with a `rename` that went through, where
the last `PT_LOAD` `l` before the first `PT_NOTE` `t` ends less than a page below `2 ^ 64`,
`ELF_PAGEALIGN` wraps and the new `PT_LOAD` at `t` gets `p_vaddr = 0`. -/
theorem newLoad_wraps (h : (shivaPrelink lib sys ctx obj fs).1 = some true)
    (hr : sys.renameFails = false) (hl : Laid obj.mem) {t : Nat} (ht : noteSlot obj.mem = some t) {l : Nat}
    (hlt : l < t) (hL : (segmentAt obj.mem l).type = ptLoad)
    (hlast : ∀ j, l < j → j < t → (segmentAt obj.mem j).type ≠ ptLoad)
    (hend : u64 < (segmentAt obj.mem l).vaddr + (segmentAt obj.mem l).memsz + 4096)
    (hle : (segmentAt obj.mem l).vaddr + (segmentAt obj.mem l).memsz ≤ u64) :
    ∃ f, (shivaPrelink lib sys ctx obj fs).2 ctx.outputExec = some f ∧ (segmentAt f.data t).type = ptLoad ∧
      (segmentAt f.data t).vaddr = 0 := by
  obtain ⟨rw, t', d, f, ht', -, hdt, -, hf, -, -, hseg⟩ := shivaPrelink_headers h hr hl
  obtain rfl : t = t' := Option.some.inj (ht.symm.trans ht')
  have hT : segmentAt f.data t = nSegment obj ⟨(segmentAt obj.mem l).vaddr, (segmentAt obj.mem l).memsz, 4096⟩ rw.copy := by
    rw [hseg t (noteSlot_spec ht).1, if_neg (by omega), if_pos rfl, lastLoadOf_of_last ht hlt hL hlast]
  have hwrap : ((segmentAt obj.mem l).vaddr + (segmentAt obj.mem l).memsz + 4095) % u64 < 4096 := by
    rw [Nat.mod_eq_sub_mod (by omega), Nat.mod_eq_of_lt (by unfold u64 at *; omega)]
    omega
  refine ⟨f, hf, by rw [hT]; rfl, ?_⟩
  rw [hT]
  show elfPageAlign ((segmentAt obj.mem l).vaddr + (segmentAt obj.mem l).memsz) 4096 = 0
  rw [elfPageAlign_minAlign, Nat.div_eq_of_lt hwrap, Nat.zero_mul]

/-- `loadImage` with its `PT_LOAD` in the last page of the address space, at `2 ^ 64 - 4096`, and
its `PT_DYNAMIC` moved with it. -/
def wrapImage : List UInt8 :=
  writeBytes (writeBytes loadImage 64 (ElfSegment.encode ⟨ptLoad, 5, 0, u64 - 4096, u64 - 4096, 460, 460, 4096⟩)) 176
    (ElfSegment.encode ⟨ptDynamic, 6, 348, u64 - 3748, u64 - 3748, 48, 48, 8⟩)

theorem length_wrapImage : wrapImage.length = 460 := by
  simp [wrapImage, length_loadImage]

def wrapObj : ElfObj := ⟨"a.out", wrapImage, by rw [length_wrapImage]; decide⟩

def wrapFs : Fs := fun p => if p = "a.out" then some ⟨wrapImage, 1000, 1000, 0o755⟩ else none

set_option maxRecDepth 10000 in
theorem wrap_laid : Laid wrapImage := by
  refine ⟨by decide, by decide, by decide, fun p hp => ?_⟩
  obtain rfl : p = ⟨ptInterp, 4, 344, 344, 344, 4, 4, 1⟩ :=
    Option.some.inj (hp.symm.trans (by decide))
  unfold InterpLaid
  decide

set_option maxRecDepth 10000 in
theorem wrap_newLoad_wraps :
    (shivaPrelink sampleLib sampleSys sampleCtx wrapObj wrapFs).1 = some true ∧ noteSlot wrapObj.mem = some 3 ∧
      (segmentAt wrapObj.mem 0).type = ptLoad ∧ (segmentAt wrapObj.mem 0).vaddr = u64 - 4096 ∧
      ∃ f, (shivaPrelink sampleLib sampleSys sampleCtx wrapObj wrapFs).2 sampleCtx.outputExec = some f ∧
        (segmentAt f.data 3).type = ptLoad ∧ (segmentAt f.data 3).vaddr = 0 := by
  have hrun : (shivaPrelink sampleLib sampleSys sampleCtx wrapObj wrapFs).1 = some true :=
    sample_run_of rfl wrap_laid rfl rfl
    (show _ = some (4096, 32, 3, 460) by decide) (by decide) (by decide)
  have ht : noteSlot wrapObj.mem = some 3 := by decide
  have hL : (segmentAt wrapObj.mem 0).type = ptLoad := by decide
  have hlast : ∀ j, 0 < j → j < 3 → (segmentAt wrapObj.mem j).type ≠ ptLoad := by
    have h3 : ∀ j < 3, 0 < j → (segmentAt wrapObj.mem j).type ≠ ptLoad := by decide
    exact fun j h₁ h₂ => h3 j h₂ h₁
  exact ⟨hrun, ht, hL, by decide, newLoad_wraps hrun rfl wrap_laid ht (by decide) hL hlast (by decide) (by decide)⟩

end Placement

end Shiva
