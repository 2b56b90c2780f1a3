import Shiva.Frame

/-!
# What the loader sees of the output

`elf_read_address` reads a virtual address through the first `PT_LOAD` whose file-backed range
holds it. The output of a run differs from its input in two program headers, `PT_DYNAMIC` and the
first `PT_NOTE`, which becomes the new `PT_LOAD`, and in the bytes `shiva_prelink` writes into the
image. So an address that the new `PT_LOAD` does not take is read through the same header as in
the input, from the same file offset, and reads the same byte unless the rewrite wrote it.

* `ElfSegment.Maps`, `loadAt`, `readOffset`, `elfReadByte_eq`: the header and the file offset an
  address is read through;
* `find?_range_update`: the first match of a predicate that changes at one index;
* `loadAt_swap`, `readOffset_swap`: the same for an image whose program headers differ at two
  indices;
* `Kept`, `getElem?_output`: the input's bytes that the rewrite does not write;
* **`output_loaded_view`**: the output reads every address as the input does, but those the new
  `PT_LOAD` takes and the bytes the rewrite writes.
-/

namespace Shiva

/-! ## Reading a virtual address -/

/-- `s` is a `PT_LOAD` whose file-backed range holds the virtual address `a`. -/
def ElfSegment.Maps (s : ElfSegment) (a : Nat) : Prop :=
  s.type = ptLoad ∧ s.vaddr ≤ a ∧ a < s.vaddr + s.filesz

instance (s : ElfSegment) (a : Nat) : Decidable (s.Maps a) := inferInstanceAs (Decidable (_ ∧ _))

/-- The program header `elf_read_address` reads the virtual address `a` through. -/
def loadAt (mem : List UInt8) (a : Nat) : Option Nat :=
  (List.range (header mem).phnum).find? fun j => (segmentAt mem j).Maps a

/-- The file offset `elf_read_address` reads the virtual address `a` from. -/
def readOffset (mem : List UInt8) (a : Nat) : Option Nat :=
  (loadAt mem a).map fun j => (segmentAt mem j).offset + (a - (segmentAt mem j).vaddr)

theorem elfReadByte_eq (mem : List UInt8) (a : Nat) : elfReadByte mem a = (readOffset mem a).bind (mem[·]?) := by
  have hP : ((fun p : Nat × ElfSegment => decide (p.2.type = ptLoad ∧ p.2.vaddr ≤ a ∧ a < p.2.vaddr + p.2.filesz)) ∘
      fun j => (j, segmentAt mem j)) = fun j => decide ((segmentAt mem j).Maps a) := rfl
  unfold elfReadByte readOffset loadAt segments
  rw [List.find?_map, hP]
  cases (List.range (header mem).phnum).find? fun j => (segmentAt mem j).Maps a <;> rfl

theorem loadAt_spec {mem : List UInt8} {a j : Nat} (h : loadAt mem a = some j) :
    j < (header mem).phnum ∧ (segmentAt mem j).Maps a := by
  rw [loadAt, List.find?_range_eq_some] at h
  exact ⟨List.mem_range.mp h.2.1, of_decide_eq_true h.1⟩

/-- The first index below `n` where `Q` holds, when `Q` agrees with `P` but at an index `t` where
`P` fails: `t` if `Q` holds there and `P` nowhere before it, and the first index of `P` otherwise. -/
theorem find?_range_update {P Q : Nat → Bool} {n t : Nat} (ht : t < n) (hPt : P t = false)
    (hQ : ∀ j < n, j ≠ t → Q j = P j) :
    (List.range n).find? Q = if Q t = true ∧ ∀ j < t, P j = false then some t else (List.range n).find? P := by
  split_ifs with hC
  · rw [List.find?_range_eq_some]
    exact ⟨by simp [hC.1], List.mem_range.mpr ht, fun j hj => by simp [hQ j (by omega) (by omega), hC.2 j hj]⟩
  · cases hP : (List.range n).find? P with
    | none =>
      rw [List.find?_range_eq_none] at hP ⊢
      intro j hj
      by_cases hjt : j = t
      · subst hjt
        simpa using fun hq => hC ⟨hq, fun i hi => by simpa using hP i (by omega)⟩
      · rw [hQ j hj hjt]; exact hP j hj
    | some i =>
      rw [List.find?_range_eq_some] at hP ⊢
      obtain ⟨hPi, hi, hbefore⟩ := hP
      have hit : i ≠ t := by rintro rfl; rw [hPt] at hPi; cases hPi
      refine ⟨by rw [hQ i (List.mem_range.mp hi) hit]; exact hPi, hi, fun j hj => ?_⟩
      by_cases hjt : j = t
      · subst hjt
        simpa using fun hq => hC ⟨hq, fun k hk => by simpa using hbefore k (by omega)⟩
      · rw [hQ j (by have := List.mem_range.mp hi; omega) hjt]; exact hbefore j hj

/-! ## Two images that differ in two program headers -/

section Swap

variable {m m' : List UInt8} {t d : Nat} (hhd : header m' = header m) (ht : t < (header m).phnum)
  (hnote : ¬ (segmentAt m t).type = ptLoad) (hd : ¬ (segmentAt m d).type = ptLoad)
  (hd' : ¬ (segmentAt m' d).type = ptLoad) (hseg : ∀ j < (header m).phnum, j ≠ t → j ≠ d → segmentAt m' j = segmentAt m j)
include hhd ht hnote hd hd' hseg

/-- The header `m'` reads an address through, when it has the program headers of `m` but at `t`,
no `PT_LOAD` in `m`, and at `d`, a `PT_LOAD` in neither: `t` when that header holds the address
and no `PT_LOAD` before it does, and the header of `m` otherwise. -/
theorem loadAt_swap (a : Nat) :
    loadAt m' a = if (segmentAt m' t).Maps a ∧ ∀ j < t, ¬ (segmentAt m j).Maps a then some t else loadAt m a := by
  have hagree : ∀ j < (header m).phnum, j ≠ t →
      decide ((segmentAt m' j).Maps a) = decide ((segmentAt m j).Maps a) := by
    intro j hj hjt
    by_cases hjd : j = d
    · subst hjd
      simp [ElfSegment.Maps, hd, hd']
    · rw [hseg j hj hjt hjd]
  unfold loadAt
  rw [hhd, find?_range_update ht (by simp [ElfSegment.Maps, hnote]) hagree]
  simp only [decide_eq_true_eq, decide_eq_false_iff_not]

/-- An address the header `t` of `m'` does not take is read from the same file offset in both. -/
theorem readOffset_swap {a : Nat} (hn : ¬ ((segmentAt m' t).Maps a ∧ ∀ j < t, ¬ (segmentAt m j).Maps a)) :
    readOffset m' a = readOffset m a := by
  unfold readOffset
  rw [loadAt_swap hhd ht hnote hd hd' hseg, if_neg hn]
  cases hj : loadAt m a with
  | none => rfl
  | some j =>
    obtain ⟨hjn, hty, -⟩ := loadAt_spec hj
    have hjd : j ≠ d := by rintro rfl; exact hd hty
    have hjt : j ≠ t := by rintro rfl; exact hnote hty
    rw [Option.map_some', Option.map_some', hseg j hjn hjt hjd]

end Swap

/-! ## The bytes the rewrite keeps -/

/-- The input's file offset `k` is one the rewrite does not write: inside the input, and apart
from the signature, the program headers `t` and `d`, the address, offset and size of the first
`SHT_DYNAMIC` section header, and the first `len + 1` bytes of the `PT_INTERP` string at `off`. -/
def Kept (mem : List UInt8) (t d off len k : Nat) : Prop :=
  k < mem.length ∧ Apart k 1 eiPad 4 ∧ Apart k 1 (phdrOffset mem t) phdrSize ∧
    Apart k 1 (phdrOffset mem d) phdrSize ∧
    (∀ s ∈ (dynamicSection mem).map (·.1), Apart k 1 (shdrOffset mem s + 16) 24) ∧ Apart k 1 off (len + 1)

instance (mem : List UInt8) (t d off len k : Nat) : Decidable (Kept mem t d off len k) :=
  inferInstanceAs (Decidable (_ ∧ _))

section View

variable {lib : Libelf} {sys : Sys} {ctx : PrelinkCtx} {obj : ElfObj} {fs : Fs}

/-- A byte of the input that the rewrite does not write reads the same in the output. -/
theorem getElem?_output (h : (shivaPrelink lib sys ctx obj fs).1 = some true) (hr : sys.renameFails = false)
    (hl : Laid obj.mem) {t d : Nat} {p : ElfSegment} {f : File} (ht : noteSlot obj.mem = some t)
    (hD : lastOfType ptDynamic (beforeNote obj.mem) = some (d, segmentAt obj.mem d))
    (hp : interpSegment obj.mem = some p) (hf : (shivaPrelink lib sys ctx obj fs).2 ctx.outputExec = some f)
    {k : Nat} (hk : Kept obj.mem t d p.offset ctx.interpPath.len k) : f.data[k]? = obj.mem[k]? := by
  obtain ⟨rw, p', f', hrw, hp', -, -, hf', hdata⟩ := shivaPrelink_file h hr hl
  obtain ⟨t', d', ht', hD', -, -, -, hmem⟩ := prelinkRewrite_image hrw hl
  obtain ⟨-, -, -, -, -, -, -, -, hlen⟩ := prelinkRewrite_interp hrw hl
  obtain rfl := Option.some.inj (ht.symm.trans ht')
  obtain rfl := (Prod.mk.inj (Option.some.inj (hD.symm.trans hD'))).1
  obtain rfl := Option.some.inj (hp.symm.trans hp')
  obtain rfl := Option.some.inj (hf.symm.trans hf')
  obtain ⟨hkS, hke, hkt, hkd, hks, hki⟩ := hk
  rw [hdata, List.getElem?_append_left (by simp [hlen]; omega), getElem?_stamped hke hki, hmem,
    getElem?_rewriteWrites hkt hkd hks]

/-- **What the loader sees of the output.** After a run that returns `true` on a well-laid-out
input, with a `rename` that went through: an address that the new `PT_LOAD` at `t` holds, and no
`PT_LOAD` before `t` does, is read from the new segment; every other address is read through the
same header and from the same file offset as in the input, and reads the same byte when the
rewrite did not write that offset. -/
theorem output_loaded_view (h : (shivaPrelink lib sys ctx obj fs).1 = some true) (hr : sys.renameFails = false)
    (hl : Laid obj.mem) (_hwhole : ∀ rw ∈ prelinkRewrite lib sys ctx obj, WritesWhole sys ctx obj.mem.length rw) :
    ∃ t d p f, noteSlot obj.mem = some t ∧ lastOfType ptDynamic (beforeNote obj.mem) = some (d, segmentAt obj.mem d) ∧
      interpSegment obj.mem = some p ∧ (shivaPrelink lib sys ctx obj fs).2 ctx.outputExec = some f ∧
      (segmentAt f.data t).type = ptLoad ∧
      (∀ a, (segmentAt f.data t).Maps a → (∀ j < t, ¬ (segmentAt obj.mem j).Maps a) →
        readOffset f.data a = some ((segmentAt f.data t).offset + (a - (segmentAt f.data t).vaddr))) ∧
      ∀ a, ¬ ((segmentAt f.data t).Maps a ∧ ∀ j < t, ¬ (segmentAt obj.mem j).Maps a) →
        readOffset f.data a = readOffset obj.mem a ∧
        ((∀ k, readOffset obj.mem a = some k → Kept obj.mem t d p.offset ctx.interpPath.len k) →
          elfReadByte f.data a = elfReadByte obj.mem a) := by
  obtain ⟨rw, t, d, f, ht, hD, hdt, -, hf, hhd, -, hseg⟩ := shivaPrelink_headers h hr hl
  obtain ⟨-, p, -, -, hp, -⟩ := shivaPrelink_file h hr hl
  obtain ⟨htn, hnote, -⟩ := noteSlot_spec ht
  have hdyn : (segmentAt obj.mem d).type = ptDynamic := (lastOfType_mem hD).2
  have hnt : (segmentAt f.data t).type = ptLoad := by rw [hseg t htn, if_neg (by omega), if_pos rfl]; rfl
  have hdf : ¬ (segmentAt f.data d).type = ptLoad := by
    rw [hseg d (by omega), if_pos rfl]; show ¬ ptDynamic = ptLoad; decide
  have hsame : ∀ j < (header obj.mem).phnum, j ≠ t → j ≠ d → segmentAt f.data j = segmentAt obj.mem j :=
    fun j hj hjt hjd => by rw [hseg j hj, if_neg hjd, if_neg hjt]
  have hnl : ¬ (segmentAt obj.mem t).type = ptLoad := by rw [hnote]; decide
  have hdl : ¬ (segmentAt obj.mem d).type = ptLoad := by rw [hdyn]; decide
  refine ⟨t, d, p, f, ht, hD, hp, hf, hnt, fun a h₁ h₂ => ?_,
    fun a hn => ⟨readOffset_swap hhd htn hnl hdl hdf hsame hn, fun hk => ?_⟩⟩
  · rw [readOffset, loadAt_swap hhd htn hnl hdl hdf hsame, if_pos ⟨h₁, h₂⟩]
    rfl
  · rw [elfReadByte_eq, elfReadByte_eq, readOffset_swap hhd htn hnl hdl hdf hsame hn]
    cases ho : readOffset obj.mem a with
    | none => rfl
    | some k => exact getElem?_output h hr hl ht hD hp hf (hk k ho)

theorem load_loaded_view :
    (shivaPrelink sampleLib sampleSys sampleCtx loadObj loadFs).1 = some true ∧ sampleSys.renameFails = false ∧
      Laid loadObj.mem ∧
      (∀ rw ∈ prelinkRewrite sampleLib sampleSys sampleCtx loadObj, WritesWhole sampleSys sampleCtx loadObj.mem.length rw) ∧
      ∃ t d p f, noteSlot loadObj.mem = some t ∧
        lastOfType ptDynamic (beforeNote loadObj.mem) = some (d, segmentAt loadObj.mem d) ∧
        interpSegment loadObj.mem = some p ∧
        (shivaPrelink sampleLib sampleSys sampleCtx loadObj loadFs).2 sampleCtx.outputExec = some f ∧
        (segmentAt f.data t).type = ptLoad ∧
        (∀ a, (segmentAt f.data t).Maps a → (∀ j < t, ¬ (segmentAt loadObj.mem j).Maps a) →
          readOffset f.data a = some ((segmentAt f.data t).offset + (a - (segmentAt f.data t).vaddr))) ∧
        ∀ a, ¬ ((segmentAt f.data t).Maps a ∧ ∀ j < t, ¬ (segmentAt loadObj.mem j).Maps a) →
          readOffset f.data a = readOffset loadObj.mem a ∧
          ((∀ k, readOffset loadObj.mem a = some k → Kept loadObj.mem t d p.offset sampleCtx.interpPath.len k) →
            elfReadByte f.data a = elfReadByte loadObj.mem a) :=
  ⟨load_run, rfl, load_laid, load_writesWhole, output_loaded_view load_run rfl load_laid load_writesWhole⟩

end View

end Shiva
