import Shiva.Scan

/-!
# What the header rewrite does

The program-header loop of `shiva_prelink`, described by what it reaches: it processes the
headers before the first `PT_NOTE` and breaks there, so the new `PT_LOAD` goes after the last
`PT_LOAD` before that note and `PT_DYNAMIC` is the last one before it.

* `lastOfType`, `beforeNote`, `noteSlot`, `lastLoadOf`: the input's headers as the loop sees them,
  with `noteSlot_spec` and `beforeNote_eq` in terms of header indices;
* `scanStep`, `scanLoop_eq`: the loop runs the steps up to the first `PT_NOTE`, then the note step;
* `lastLoad_foldlM`, `dynamic_foldlM`: what those steps leave in the locals;
* **`prelinkRewrite_spec`**: everything a successful header rewrite did.
-/

namespace Shiva

/-- The last program header of type `ty` in `l`. -/
def lastOfType (ty : Nat) (l : List (Nat × ElfSegment)) : Option (Nat × ElfSegment) :=
  (l.filter (·.2.type = ty)).getLast?

theorem lastOfType_cons (ty : Nat) (x : Nat × ElfSegment) (l : List (Nat × ElfSegment)) :
    lastOfType ty (x :: l) = (lastOfType ty l).or (if x.2.type = ty then some x else none) := by
  unfold lastOfType
  by_cases hx : x.2.type = ty
  · rw [List.filter_cons_of_pos (by simpa using hx), if_pos hx]
    cases h : List.filter (fun y => decide (y.2.type = ty)) l with
    | nil => rfl
    | cons y ys => simp [List.getLast?_cons_cons, List.getLast?_eq_getLast]
  · rw [List.filter_cons_of_neg (by simpa using hx), if_neg hx, Option.or_none]

/-- The headers the loop of `shiva_prelink` walks before it meets the first `PT_NOTE`. -/
def beforeNote (mem : List UInt8) : List (Nat × ElfSegment) :=
  (segments mem).takeWhile (·.2.type ≠ ptNote)

/-- The index of the first `PT_NOTE`: the slot that becomes the new `PT_LOAD`. -/
def noteSlot (mem : List UInt8) : Option Nat :=
  ((segments mem).find? (·.2.type = ptNote)).map (·.1)

theorem lastOfType_mem {ty : Nat} {l : List (Nat × ElfSegment)} {x : Nat × ElfSegment}
    (h : lastOfType ty l = some x) : x ∈ l ∧ x.2.type = ty := by
  have hx := List.mem_of_getLast?_eq_some h
  rw [List.mem_filter] at hx
  exact ⟨hx.1, by simpa using hx.2⟩

theorem lastOfType_append_singleton (ty : Nat) (l : List (Nat × ElfSegment)) (x : Nat × ElfSegment) :
    lastOfType ty (l ++ [x]) = if x.2.type = ty then some x else lastOfType ty l := by
  unfold lastOfType
  split_ifs with hx
  · simp [List.filter_append, hx]
  · simp [List.filter_append, hx]

/-- Over the headers `0 .. t - 1`, the last one of type `ty` is a header of that type after which
none comes. -/
theorem lastOfType_range {ty t : Nat} {seg : Nat → ElfSegment} {x : Nat × ElfSegment}
    (h : lastOfType ty ((List.range t).map fun j => (j, seg j)) = some x) :
    x.1 < t ∧ x.2 = seg x.1 ∧ x.2.type = ty ∧ ∀ j, x.1 < j → j < t → (seg j).type ≠ ty := by
  induction t with
  | zero => cases h
  | succ t ih =>
    rw [List.range_succ, List.map_append, List.map_singleton, lastOfType_append_singleton] at h
    split_ifs at h with hx
    · cases h
      exact ⟨by omega, rfl, hx, fun j hj hj' => by omega⟩
    · obtain ⟨h₁, h₂, h₃, h₄⟩ := ih h
      exact ⟨by omega, h₂, h₃, fun j hj hj' => by
        rcases Nat.lt_succ_iff_lt_or_eq.mp hj' with hj' | rfl
        · exact h₄ j hj hj'
        · exact hx⟩

theorem lastOfType_range_isSome {ty t : Nat} {seg : Nat → ElfSegment} {i : Nat} (hi : i < t)
    (hty : (seg i).type = ty) : (lastOfType ty ((List.range t).map fun j => (j, seg j))).isSome := by
  unfold lastOfType
  rw [List.getLast?_isSome, Ne, List.filter_eq_nil_iff]
  intro h
  exact h (i, seg i) (List.mem_map.mpr ⟨i, List.mem_range.mpr hi, rfl⟩) (by simpa using hty)

theorem noteSlot_eq (mem : List UInt8) :
    noteSlot mem = (List.range (header mem).phnum).find? fun j => (segmentAt mem j).type = ptNote := by
  rw [noteSlot, segments, List.find?_map, Option.map_map]
  exact Option.map_id'

/-- The slot of the new `PT_LOAD`: a header of the table, the first `PT_NOTE`. -/
theorem noteSlot_spec {mem : List UInt8} {t : Nat} (h : noteSlot mem = some t) :
    t < (header mem).phnum ∧ (segmentAt mem t).type = ptNote ∧ ∀ j < t, (segmentAt mem j).type ≠ ptNote := by
  rw [noteSlot_eq, List.find?_range_eq_some] at h
  obtain ⟨h₁, h₂, h₃⟩ := h
  exact ⟨List.mem_range.mp h₂, by simpa using h₁, fun j hj => by simpa using h₃ j hj⟩

/-- The headers the loop walks are those before the slot, in order. -/
theorem beforeNote_eq {mem : List UInt8} {t : Nat} (h : noteSlot mem = some t) :
    beforeNote mem = (List.range t).map fun j => (j, segmentAt mem j) := by
  obtain ⟨ht, hnote, hbefore⟩ := noteSlot_spec h
  obtain ⟨r, hr⟩ := Nat.exists_eq_add_of_lt ht
  rw [beforeNote, segments, hr, show t + r + 1 = t + (r + 1) by omega, List.range_add, List.map_append,
    List.takeWhile_append_of_pos, List.range_succ_eq_map, List.map_cons, List.map_cons,
    List.takeWhile_cons_of_neg, List.append_nil]
  · simpa using hnote
  · simpa using fun j hj => hbefore j hj

/-- The `last_load_*` locals after the headers `l`, from `init`. -/
def lastLoadOf (init : LastLoad) (l : List (Nat × ElfSegment)) : LastLoad :=
  match lastOfType ptLoad l with
  | some (_, p) => ⟨p.vaddr, p.memsz, 4096⟩
  | none => init

theorem lastLoadOf_align_lt (sys : Sys) (l : List (Nat × ElfSegment)) :
    (lastLoadOf (Scan.init sys).lastLoad l).align < u64 := by
  unfold lastLoadOf
  split
  · show 4096 < u64; decide
  · exact sys.initLoadAlign.val.isLt

section Loop

variable (lib : Libelf) (sys : Sys) (ctx : PrelinkCtx) (obj : ElfObj) (orig : CStr)

/-- One header of the loop that is not a `PT_NOTE`. -/
def scanStep (s : Scan) (x : Nat × ElfSegment) : Option Scan :=
  if x.2.type = ptLoad then some (loadStep s x.2)
  else if x.2.type = ptDynamic then dynamicStep lib sys ctx obj orig s x.1 x.2
  else some s

theorem scanLoop_cons (s : Scan) (x : Nat × ElfSegment) (rest : List (Nat × ElfSegment)) :
    scanLoop lib sys ctx obj orig s (x :: rest) =
      if x.2.type = ptNote then noteStep obj s x.1
      else (scanStep lib sys ctx obj orig s x).bind (scanLoop lib sys ctx obj orig · rest) := by
  obtain ⟨i, seg⟩ := x
  simp only [scanLoop, scanStep]
  by_cases h₁ : seg.type = ptLoad
  · rw [if_pos h₁, if_neg (by simp [h₁, ptLoad, ptNote]), if_pos h₁]
    rfl
  · by_cases h₂ : seg.type = ptDynamic
    · rw [if_neg h₁, if_pos h₂, if_neg (by simp [h₂, ptDynamic, ptNote]), if_neg h₁, if_pos h₂]
    · rw [if_neg h₁, if_neg h₂, if_neg h₁, if_neg h₂]
      by_cases h₃ : seg.type = ptNote
      · rw [if_pos h₃, if_pos h₃]
      · rw [if_neg h₃, if_neg h₃]
        rfl

/-- **The loop runs the steps up to the first `PT_NOTE` and breaks there.** -/
theorem scanLoop_eq (s : Scan) (l : List (Nat × ElfSegment)) :
    scanLoop lib sys ctx obj orig s l =
      ((l.takeWhile (·.2.type ≠ ptNote)).foldlM (scanStep lib sys ctx obj orig) s).bind fun s' =>
        ((l.find? (·.2.type = ptNote)).map (·.1)).bind (noteStep obj s') := by
  induction l generalizing s with
  | nil => rfl
  | cons x rest ih =>
    rw [scanLoop_cons]
    by_cases hx : x.2.type = ptNote
    · rw [if_pos hx, List.takeWhile_cons_of_neg (by simpa using hx),
        List.find?_cons_of_pos _ (by simpa using hx)]
      rfl
    · rw [if_neg hx, List.takeWhile_cons_of_pos (by simpa using hx),
        List.find?_cons_of_neg _ (by simpa using hx), List.foldlM_cons]
      cases scanStep lib sys ctx obj orig s x with
      | none => rfl
      | some s₁ => exact ih s₁

theorem scanStep_lastLoad {s s₁ : Scan} {x : Nat × ElfSegment}
    (h : scanStep lib sys ctx obj orig s x = some s₁) :
    s₁.lastLoad = if x.2.type = ptLoad then ⟨x.2.vaddr, x.2.memsz, 4096⟩ else s.lastLoad := by
  unfold scanStep at h
  split_ifs at h with h₁ h₂
  · cases h; rw [if_pos h₁]; rfl
  · obtain ⟨c, -, rfl⟩ := Option.map_eq_some'.mp h
    rw [if_neg h₁]
  · cases h; rw [if_neg h₁]

theorem scanStep_dynamic {s s₁ : Scan} {x : Nat × ElfSegment}
    (h : scanStep lib sys ctx obj orig s x = some s₁) :
    s₁.dynamic = if x.2.type = ptDynamic then dynCopy lib sys ctx obj orig x.1 x.2 else s.dynamic := by
  unfold scanStep at h
  split_ifs at h with h₁ h₂
  · cases h
    rw [if_neg (by simp [h₁, ptLoad, ptDynamic])]
    rfl
  · obtain ⟨c, hc, rfl⟩ := Option.map_eq_some'.mp h
    rw [if_pos h₂, hc]
  · cases h
    rw [if_neg h₂]

/-- The `last_load_*` locals after the steps are those of the last `PT_LOAD` among them. -/
theorem lastLoad_foldlM : ∀ (l : List (Nat × ElfSegment)) (s s' : Scan),
    l.foldlM (scanStep lib sys ctx obj orig) s = some s' → s'.lastLoad = lastLoadOf s.lastLoad l
  | [], s, s', h => by cases h; rfl
  | x :: l, s, s', h => by
    rw [List.foldlM_cons] at h
    obtain ⟨s₁, h₁, h⟩ := Option.bind_eq_some.mp h
    rw [lastLoad_foldlM l s₁ s' h, lastLoadOf, lastLoadOf, lastOfType_cons,
      scanStep_lastLoad lib sys ctx obj orig h₁]
    cases lastOfType ptLoad l with
    | some y => rfl
    | none => by_cases hx : x.2.type = ptLoad <;> simp [hx]

/-- After the steps, the recorded `PT_DYNAMIC` is the last one among them. -/
theorem dynamic_foldlM : ∀ (l : List (Nat × ElfSegment)) (s s' : Scan),
    l.foldlM (scanStep lib sys ctx obj orig) s = some s' →
      s'.dynamic = match lastOfType ptDynamic l with
        | some (i, p) => dynCopy lib sys ctx obj orig i p
        | none => s.dynamic
  | [], s, s', h => by cases h; rfl
  | x :: l, s, s', h => by
    rw [List.foldlM_cons] at h
    obtain ⟨s₁, h₁, h⟩ := Option.bind_eq_some.mp h
    rw [dynamic_foldlM l s₁ s' h, lastOfType_cons, scanStep_dynamic lib sys ctx obj orig h₁]
    cases lastOfType ptDynamic l with
    | some y => rfl
    | none => by_cases hx : x.2.type = ptDynamic <;> simp [hx]

/-- The steps before the first `PT_NOTE` go through exactly when every `PT_DYNAMIC` among them can
be copied, not only the last one. -/
theorem foldlM_scanStep_isSome : ∀ (l : List (Nat × ElfSegment)) (s : Scan),
    (l.foldlM (scanStep lib sys ctx obj orig) s).isSome ↔
      ∀ x ∈ l, x.2.type = ptDynamic → (dynCopy lib sys ctx obj orig x.1 x.2).isSome
  | [], _ => by simp
  | x :: l, s => by
    have hstep : (scanStep lib sys ctx obj orig s x).isSome ↔
        (x.2.type = ptDynamic → (dynCopy lib sys ctx obj orig x.1 x.2).isSome) := by
      unfold scanStep dynamicStep
      split_ifs with h₁ h₂ <;> simp_all [ptLoad, ptDynamic]
    rw [List.foldlM_cons, List.forall_mem_cons]
    cases hs : scanStep lib sys ctx obj orig s x with
    | none =>
      rw [hs] at hstep
      exact ⟨fun h => absurd h (by simp), fun h => absurd (hstep.mpr h.1) (by simp)⟩
    | some s₁ =>
      rw [hs] at hstep
      show (l.foldlM (scanStep lib sys ctx obj orig) s₁).isSome ↔ _
      rw [foldlM_scanStep_isSome l s₁]
      exact ⟨fun h => ⟨hstep.mp rfl, h⟩, fun h => h.2⟩

end Loop

/-! ## A successful header rewrite -/

section Spec

variable {lib : Libelf} {sys : Sys} {ctx : PrelinkCtx} {obj : ElfObj}

/-- **What a successful header rewrite did.** It kept the original interpreter path; the input
has a first `PT_NOTE` at `t` and a last `PT_DYNAMIC` `(d, D)` before it, whose copy succeeded;
header `t` became `n_segment`, placed after the last `PT_LOAD` before `t`, then header `d` became
`dyn_segment`, and the `.dynamic` section header was updated. -/
theorem prelinkRewrite_spec {rw : Rewrite} (h : prelinkRewrite lib sys ctx obj = some rw) :
    obj.interpreterPath = some rw.orig ∧
      ∃ t d D mem₁ mem₂, noteSlot obj.mem = some t ∧
        lastOfType ptDynamic (beforeNote obj.mem) = some (d, D) ∧
        dynCopy lib sys ctx obj rw.orig d D = some rw.copy ∧
        rw.newSegment = newSegmentOf obj (lastLoadOf (Scan.init sys).lastLoad (beforeNote obj.mem)) rw.copy ∧
        elfSegmentModify obj.mem t
          (nSegment obj (lastLoadOf (Scan.init sys).lastLoad (beforeNote obj.mem)) rw.copy) = some mem₁ ∧
        elfSegmentModify mem₁ d (dynSegment rw.newSegment) = some mem₂ ∧
        updateDynamicSection mem₂ rw.newSegment = some rw.mem := by
  unfold prelinkRewrite at h
  split at h
  · cases h
  · next orig horig =>
    split_ifs at h
    obtain ⟨f, hf, h⟩ := Option.bind_eq_some.mp h
    obtain ⟨mem, hmem, rfl⟩ := Option.map_eq_some'.mp h
    rw [scanLoop_eq] at hf
    obtain ⟨s', hs', hf⟩ := Option.bind_eq_some.mp hf
    obtain ⟨t, ht, hf⟩ := Option.bind_eq_some.mp hf
    have hdyn := dynamic_foldlM lib sys ctx obj orig _ _ _ hs'
    have hload := lastLoad_foldlM lib sys ctx obj orig _ _ _ hs'
    unfold noteStep at hf
    split at hf
    · cases hf
    · next c hc =>
      obtain ⟨mem₁, h₁, hf⟩ := Option.bind_eq_some.mp hf
      obtain ⟨mem₂, h₂, rfl⟩ := Option.map_eq_some'.mp hf
      rw [hc] at hdyn
      split at hdyn
      · next d D hD =>
        have hc' := (dynCopy_eq_some lib sys ctx obj orig hdyn.symm).2.2.2.2.1
        rw [hload] at h₁ h₂ hmem ⊢
        subst hc'
        exact ⟨horig, t, c.dynamicIndex, D, mem₁, mem₂, ht, hD, hdyn.symm, rfl, h₁, h₂, hmem⟩
      · cases hdyn

end Spec

end Shiva
