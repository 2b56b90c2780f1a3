import Shiva.Image

/-!
# The Shiva dynamic metadata, read back

What the loader and the Shiva runtime read out of a prelinked file: the new `PT_DYNAMIC` header,
the dynamic entries it covers, and the strings the three Shiva tags point at through the new
`PT_LOAD`.

* `fileOffset`, `StringAt`: an address mapped into the file through a program header, and the
  string found there; `dynArray`, `dynEntries`: the dynamic entries a header covers, decoded;
* `le_newSegment_offset`, `outputTail_eq`: where writes 2 to 7 put their bytes;
* `shivaPrelink_layout`: the output of a run that returns `true`, cut where the new segment
  starts; `stringsAt_shivaDyn`: the three strings sit where the Shiva entries point;
* `output_tail_layout`, `output_old_entries`: what writes 2 and 3 put there, stack bytes after
  `null` and, past what `elf_segment_copy` copied, zeros and heap bytes;
* **`dynamic_roundtrip`**: the dynamic array of the output reads back, byte by byte, as the first
  `n - 1` original entries and the three Shiva entries, whose strings are the search path, the
  patch name and the original interpreter;
* `shivaPrelink_entries`, `shivaPrelink_dynEntries`: the same array decoded entry by entry.
-/

namespace Shiva

/-- The file offset of the address `a` through the program header `seg`, in 64-bit arithmetic:
`p_offset + (a - p_vaddr)`. -/
def fileOffset (seg : ElfSegment) (a : Nat) : Nat := seg.offset + (a + u64 - seg.vaddr) % u64

/-- At the address `a`, mapped into the file through `seg`, the file holds the string `s` and its
NUL, inside the bytes of the segment and inside the file. -/
def StringAt (mem : List UInt8) (seg : ElfSegment) (a : Nat) (s : CStr) : Prop :=
  seg.offset ≤ fileOffset seg a ∧ fileOffset seg a + (s.len + 1) ≤ seg.offset + seg.filesz ∧
    fileOffset seg a + (s.len + 1) ≤ mem.length ∧ cStringBytes mem (fileOffset seg a) = s.bytes

theorem fileOffset_add (seg : ElfSegment) {x : Nat} (hv : seg.vaddr < u64) (hx : x < u64) :
    fileOffset seg ((seg.vaddr + x) % u64) = seg.offset + x := by
  unfold fileOffset u64 at *
  omega

theorem cStringBytes_append_left (pre rest : List UInt8) (k : Nat) :
    cStringBytes (pre ++ rest) (pre.length + k) = cStringBytes rest k := by
  rw [cStringBytes, cStringBytes, List.drop_append]

theorem getElem?_append_add (pre rest : List UInt8) (k : Nat) : (pre ++ rest)[pre.length + k]? = rest[k]? := by
  rw [List.getElem?_append_right (by omega), Nat.add_sub_cancel_left]

/-- A string written with its NUL at `x` bytes into a segment reads back at the address `x` past
the segment's `p_vaddr`. -/
theorem stringAt_of_eq {mem : List UInt8} (pre rest : List UInt8) {seg : ElfSegment} {s : CStr} {a : Nat} (x : Nat)
    (hmem : mem = pre ++ (s.withNul ++ rest)) (hv : seg.vaddr < u64) (ha : a = seg.vaddr + x) (hx : x < u64)
    (hpre : pre.length = seg.offset + x) (hf : x + (s.len + 1) ≤ seg.filesz) : StringAt mem seg (a % u64) s := by
  subst hmem ha
  rw [StringAt, fileOffset_add seg hv hx]
  refine ⟨by omega, by omega, by simp; omega, ?_⟩
  rw [← hpre]
  exact cStringBytes_withNul _ s rest (List.drop_left _ _)

/-! ## Decoding a dynamic array -/

/-- The first `m` dynamic entries held by the bytes `bs`. -/
def dynArray (bs : List UInt8) (m : Nat) : List ElfDyn :=
  (List.range m).map fun i => ElfDyn.decode (slice bs (i * dynEntSize) dynEntSize)

/-- The dynamic entries the header `seg` covers: `p_filesz / 16` entries from `p_offset`. -/
def dynEntries (mem : List UInt8) (seg : ElfSegment) : List ElfDyn :=
  dynArray (mem.drop seg.offset) (seg.filesz / dynEntSize)

theorem dynArray_succ (bs : List UInt8) (m : Nat) :
    dynArray bs (m + 1) = ElfDyn.decode (slice bs 0 dynEntSize) :: dynArray (bs.drop dynEntSize) m := by
  simp only [dynArray, List.range_succ_eq_map, List.map_cons, List.map_map, Nat.zero_mul]
  congr 1
  refine List.map_congr_left fun i _ => ?_
  simp only [Function.comp, slice, List.drop_drop, Nat.succ_mul, Nat.add_comm]

/-- Encoded entries decode back, whatever follows them. -/
theorem dynArray_flatMap_encode (xs : List ElfDyn) (h : ∀ x ∈ xs, x.tag < u64 ∧ x.val < u64)
    (rest : List UInt8) : dynArray (xs.flatMap ElfDyn.encode ++ rest) xs.length = xs := by
  induction xs with
  | nil => rfl
  | cons x xs ih =>
    have hx : x.encode.length = dynEntSize := ElfDyn.length_encode x
    rw [List.length_cons, dynArray_succ, List.flatMap_cons, List.append_assoc,
      slice_append_of_le (by omega), slice, List.drop_zero, List.take_of_length_le (by omega),
      ElfDyn.decode_encode (h x (List.mem_cons_self _ _)), List.drop_left' hx,
      ih fun y hy => h y (List.mem_cons_of_mem _ hy)]

/-- Bytes decoded into entries and encoded again are the same bytes. -/
theorem flatMap_encode_dynArray (m : Nat) {bs : List UInt8} (h : bs.length = m * dynEntSize) :
    (dynArray bs m).flatMap ElfDyn.encode = bs := by
  induction m generalizing bs with
  | zero => simp_all [dynArray]
  | succ m ih =>
    rw [dynArray_succ, List.flatMap_cons, ih (by simp [h, Nat.succ_mul]), ElfDyn.encode_decode
      (by rw [slice, List.drop_zero, List.length_take, h, Nat.succ_mul]; omega), slice, List.drop_zero,
      List.take_append_drop]

theorem dynArray_append {a : List UInt8} {m : Nat} (ha : a.length = m * dynEntSize) (b : List UInt8) (k : Nat) :
    dynArray (a ++ b) (m + k) = dynArray a m ++ dynArray b k := by
  induction m generalizing a with
  | zero => simp_all [dynArray]
  | succ m ih =>
    rw [show m + 1 + k = m + k + 1 by omega, dynArray_succ, dynArray_succ,
      slice_append_of_le (by rw [ha, Nat.succ_mul]; omega),
      List.drop_append_of_le_length (by rw [ha, Nat.succ_mul]; omega), ih (by simp [ha, Nat.succ_mul]),
      List.cons_append]

/-! ## Where writes 2 to 7 go -/

section Tail

variable {sys : Sys} {ctx : PrelinkCtx} {rw : Rewrite} {size : Nat}

/-- A padding write that went through puts the new segment at or past the end of the image. -/
theorem le_newSegment_offset (hw : ∀ c ∈ outputChunks sys ctx size rw, Writable sys c)
    (hS : size < addrSpace) (ho : rw.newSegment.offset < u64) : size ≤ rw.newSegment.offset := by
  have h := (hw _ (List.mem_cons_of_mem _ (List.mem_cons_self _ _))).2
  simp only [length_padding] at h
  unfold u64 addrSpace at *
  omega

/-- A third write that went through copies `16 (n - 1)` bytes for `16 n` the `old_dynamic_size`:
so `n` is at least one, and no more entries than memory holds. -/
theorem count_of_writable (hw : ∀ c ∈ outputChunks sys ctx size rw, Writable sys c) {n : Nat}
    (hold : rw.copy.oldDynamicSize = n * dynEntSize) (hlt : n * dynEntSize < u64) :
    1 ≤ n ∧ n * dynEntSize < addrSpace + dynEntSize := by
  have h := (hw _ (List.mem_cons_of_mem _ (List.mem_cons_of_mem _ (List.mem_cons_self _ _)))).2
  dsimp only at h
  rw [List.length_map, List.length_range, hold] at h
  unfold dynEntSize u64 addrSpace at *
  omega

/-- Writes 2 to 7 with their lengths worked out: the padding up to the new segment, the first
`n - 1` dynamic entries of the copy, the four new entries, and the three strings. -/
theorem outputTail_eq {n : Nat} (hS : size ≤ rw.newSegment.offset) (ho : rw.newSegment.offset < u64)
    (hold : rw.copy.oldDynamicSize = n * dynEntSize % u64) (hn : 1 ≤ n) (hlt : n * dynEntSize < u64) :
    outputTail sys ctx size rw =
      padding sys (rw.newSegment.offset - size) ++
        ((List.range ((n - 1) * dynEntSize)).map rw.copy.oldDynamicSegment ++
          ((shivaDyn ctx rw.newSegment).flatMap ElfDyn.encode ++
            (ctx.searchPath.withNul ++ (ctx.inputPatch.withNul ++ rw.orig.withNul)))) := by
  have h₁ : (rw.newSegment.offset + u64 - size) % u64 = rw.newSegment.offset - size := by
    unfold u64 at *; omega
  have h₂ : (n * dynEntSize + u64 - dynEntSize) % u64 = (n - 1) * dynEntSize := by
    unfold dynEntSize u64 at *; omega
  rw [outputTail, hold, Nat.mod_eq_of_lt hlt, h₁, h₂]

/-- When the `n` entries fit a segment of `F` bytes, the first `n - 1` of them lie inside what
`elf_segment_copy` copies of it. -/
theorem lt_copiedLength_of_fits {n F k : Nat} (hn : 1 ≤ n) (hF : n * dynEntSize ≤ F)
    (hk : k < (n - 1) * dynEntSize) : k < copiedLength F := by
  have := le_copiedLength F
  unfold dynEntSize at *
  rw [Nat.sub_mul] at hk
  omega

end Tail

/-- The three strings after the new dynamic array sit where the Shiva entries point, through a
header whose `p_vaddr` is the new segment's and whose bytes reach past the strings. -/
theorem stringsAt_shivaDyn {mem pre : List UInt8} {seg : ElfSegment} {ctx : PrelinkCtx} {ns : NewSegment}
    {orig : CStr} (hmem : mem = pre ++ ((shivaDyn ctx ns).flatMap ElfDyn.encode ++
      (ctx.searchPath.withNul ++ (ctx.inputPatch.withNul ++ orig.withNul))))
    (hv : seg.vaddr = ns.vaddr) (hvl : seg.vaddr < u64) (hfl : seg.filesz < u64)
    (hpre : pre.length + 4 * dynEntSize = seg.offset + ns.dynSize)
    (hfx : ns.dynSize + (ctx.searchPath.len + 1) + (ctx.inputPatch.len + 1) + (orig.len + 1) ≤ seg.filesz) :
    StringAt mem seg ((ns.vaddr + ns.dynSize) % u64) ctx.searchPath ∧
      StringAt mem seg ((ns.vaddr + ns.dynSize + ctx.searchPath.len + 1) % u64) ctx.inputPatch ∧
      StringAt mem seg ((ns.vaddr + ns.dynSize + ctx.searchPath.len + 1 + ctx.inputPatch.len + 1) % u64)
        orig := by
  have hd := length_shivaDyn ctx ns
  refine ⟨stringAt_of_eq (pre ++ (shivaDyn ctx ns).flatMap ElfDyn.encode) (ctx.inputPatch.withNul ++ orig.withNul)
      ns.dynSize
      (by rw [hmem, List.append_assoc]) hvl (by omega) (by omega) (by simp only [List.length_append]; omega)
      (by omega),
    stringAt_of_eq (pre ++ (shivaDyn ctx ns).flatMap ElfDyn.encode ++ ctx.searchPath.withNul) orig.withNul
      (ns.dynSize + ctx.searchPath.len + 1) (by simp only [hmem, List.append_assoc]) hvl (by omega) (by omega)
      (by simp only [List.length_append, CStr.length_withNul]; omega) (by omega),
    stringAt_of_eq (pre ++ (shivaDyn ctx ns).flatMap ElfDyn.encode ++ ctx.searchPath.withNul ++
      ctx.inputPatch.withNul) [] (ns.dynSize + ctx.searchPath.len + 1 + ctx.inputPatch.len + 1)
      (by simp only [hmem, List.append_assoc, List.append_nil]) hvl (by omega) (by omega)
      (by simp only [List.length_append, CStr.length_withNul]; omega) (by omega)⟩

/-- The string `DT_SHIVA_ORIG_INTERP` points at reads back through a header whose `p_vaddr` is the
new segment's, inside the segment's bytes or past them. -/
theorem cStringBytes_origInterp {mem pre : List UInt8} {seg : ElfSegment} {ctx : PrelinkCtx} {ns : NewSegment}
    {orig : CStr} (hmem : mem = pre ++ ((shivaDyn ctx ns).flatMap ElfDyn.encode ++
      (ctx.searchPath.withNul ++ (ctx.inputPatch.withNul ++ orig.withNul))))
    (hv : seg.vaddr = ns.vaddr) (hvl : seg.vaddr < u64) (hpre : pre.length + 4 * dynEntSize = seg.offset + ns.dynSize)
    (hx : ns.dynSize + ctx.searchPath.len + 1 + ctx.inputPatch.len + 1 < u64) :
    cStringBytes mem (fileOffset seg ((ns.vaddr + ns.dynSize + ctx.searchPath.len + 1 + ctx.inputPatch.len + 1) % u64)) =
      orig.bytes := by
  have hd := length_shivaDyn ctx ns
  rw [← hv, show seg.vaddr + ns.dynSize + ctx.searchPath.len + 1 + ctx.inputPatch.len + 1 =
    seg.vaddr + (ns.dynSize + ctx.searchPath.len + 1 + ctx.inputPatch.len + 1) by omega, fileOffset_add seg hvl hx]
  refine cStringBytes_withNul _ orig [] ?_
  rw [hmem, List.append_nil, show seg.offset + (ns.dynSize + ctx.searchPath.len + 1 + ctx.inputPatch.len + 1) =
    (pre ++ (shivaDyn ctx ns).flatMap ElfDyn.encode ++ ctx.searchPath.withNul ++ ctx.inputPatch.withNul).length by
      simp only [List.length_append, CStr.length_withNul]; omega]
  simp only [← List.append_assoc, List.drop_left]

/-! ## Reading the metadata back -/

section Roundtrip

variable {lib : Libelf} {sys : Sys} {ctx : PrelinkCtx} {obj : ElfObj} {fs : Fs}

/-- The last `PT_DYNAMIC` before the first `PT_NOTE` of an input on which a run returns `true` is
smaller than the address space: its copy was allocated. -/
theorem dynamic_filesz_lt (h : (shivaPrelink lib sys ctx obj fs).1 = some true) (hl : Laid obj.mem)
    {d : Nat} {D : ElfSegment} (hD : lastOfType ptDynamic (beforeNote obj.mem) = some (d, D)) :
    D.filesz < addrSpace := by
  obtain ⟨rw, -, -, -, hrw, -⟩ := shivaPrelink_steps h
  obtain ⟨-, d', -, hD', -, hc, -⟩ := prelinkRewrite_image hrw hl
  obtain ⟨rfl, rfl⟩ := Prod.mk.inj (Option.some.inj (hD.symm.trans hD'))
  exact (dynCopy_eq_some lib sys ctx obj rw.orig hc).2.1

/-- When the `n` entries fit `D`, their `16 n` bytes do not wrap. -/
theorem count_mod_of_fits (h : (shivaPrelink lib sys ctx obj fs).1 = some true) (hl : Laid obj.mem)
    {d : Nat} {D : ElfSegment} (hD : lastOfType ptDynamic (beforeNote obj.mem) = some (d, D))
    (hF : lib.dtagCount obj.mem * dynEntSize ≤ D.filesz) :
    lib.dtagCount obj.mem * dynEntSize % u64 = lib.dtagCount obj.mem * dynEntSize :=
  Nat.mod_eq_of_lt (by have := dynamic_filesz_lt h hl hD; unfold u64 addrSpace at *; omega)

/-- The output of a run that returns `true`, with a `rename` that went through, on a
well-laid-out input, with `D` the last `PT_DYNAMIC` before the first `PT_NOTE` and `16 n` the
`old_dynamic_size` the count gives, modulo `2 ^ 64`: the new `PT_LOAD` at the former `PT_NOTE` slot
`t`, `PT_DYNAMIC` at the start of it, and the file cut where the new segment starts, before the
first `16 (n - 1)` bytes copied out of `D`, the four new entries and the three strings. The copy
holds the bytes of `D` up to `copiedLength`, then the zeros of the `calloc`ed buffer, then what
follows the buffer. -/
theorem shivaPrelink_layout (h : (shivaPrelink lib sys ctx obj fs).1 = some true)
    (hr : sys.renameFails = false) (hl : Laid obj.mem) {d : Nat} {D : ElfSegment}
    (hD : lastOfType ptDynamic (beforeNote obj.mem) = some (d, D)) {n : Nat}
    (hm : lib.dtagCount obj.mem * dynEntSize % u64 = n * dynEntSize) :
    ∃ (rw : Rewrite) (t : Nat) (f : File) (pre : List UInt8), prelinkRewrite lib sys ctx obj = some rw ∧
      noteSlot obj.mem = some t ∧ obj.interpreterPath = some rw.orig ∧
      (shivaPrelink lib sys ctx obj fs).2 ctx.outputExec = some f ∧
      (segmentAt f.data t).type = ptLoad ∧ segmentAt f.data d = dynSegment rw.newSegment ∧
      (segmentAt f.data t).offset = rw.newSegment.offset ∧ (segmentAt f.data t).vaddr = rw.newSegment.vaddr ∧
      (segmentAt f.data t).vaddr < u64 ∧ (segmentAt f.data t).filesz < u64 ∧
      rw.newSegment.dynSize = (n + 3) * dynEntSize ∧ (1 ≤ n ∧ n * dynEntSize < addrSpace + dynEntSize) ∧
      (segmentAt f.data t).filesz = D.filesz + dynEntSize * newDynCount + (ctx.inputPatch.len + 1) +
        (ctx.searchPath.len + 1) + (rw.orig.len + 1) ∧
      pre.length = rw.newSegment.offset ∧ obj.mem.length ≤ rw.newSegment.offset ∧
      (∀ k < rw.newSegment.offset - obj.mem.length,
        pre[obj.mem.length + k]? = some (if k = 0 then 0 else sys.afterNull (k - 1))) ∧
      (∀ k < copiedLength D.filesz, elfReadByte obj.mem ((D.vaddr + k) % u64) = some (rw.copy.oldDynamicSegment k)) ∧
      (∀ k, copiedLength D.filesz ≤ k →
        rw.copy.oldDynamicSegment k = if k < D.filesz then 0 else sys.afterCopy (k - D.filesz)) ∧
      f.data = pre ++ ((List.range ((n - 1) * dynEntSize)).map rw.copy.oldDynamicSegment ++
        ((shivaDyn ctx rw.newSegment).flatMap ElfDyn.encode ++
          (ctx.searchPath.withNul ++ (ctx.inputPatch.withNul ++ rw.orig.withNul)))) := by
  obtain ⟨rw, p, f, hrw, hp, hfit, hw, hf, hdata⟩ := shivaPrelink_file h hr hl
  obtain ⟨horig, -⟩ := prelinkRewrite_spec hrw
  obtain ⟨t, d', ht, hD', hdt, hc, hns, hmem⟩ := prelinkRewrite_image hrw hl
  obtain ⟨rfl, rfl⟩ := Prod.mk.inj (Option.some.inj (hD.symm.trans hD'))
  obtain ⟨-, -, -, -, -, -, -, -, hlen⟩ := prelinkRewrite_interp hrw hl
  obtain ⟨-, hFlt, hcopy, hold, -, hdyn, hfile⟩ := dynCopy_eq_some lib sys ctx obj rw.orig hc
  obtain ⟨hnf, hdf⟩ := prelinkRewrite_fits hc hns
  have htn := (noteSlot_spec ht).1
  have hdn : d < (header obj.mem).phnum := by omega
  have hs := dynamicSection_lt obj.mem
  have hL : segmentAt f.data t = nSegment obj (lastLoadOf (Scan.init sys).lastLoad (beforeNote obj.mem)) rw.copy := by
    rw [hdata, segmentAt_stamped hrw hl hp hfit _ htn, hmem, segmentAt_rewriteWrites hl htn hdn hs (by omega)
      hnf hdf htn, if_neg (by omega), if_pos rfl]
  have hY : segmentAt f.data d = dynSegment rw.newSegment := by
    rw [hdata, segmentAt_stamped hrw hl hp hfit _ hdn, hmem, segmentAt_rewriteWrites hl htn hdn hs (by omega)
      hnf hdf hdn, if_pos rfl]
  have hS := obj.size_lt
  have hno : rw.newSegment.offset < u64 := by rw [hns]; exact elfPageAlign_lt _ _
  have hoff := le_newSegment_offset hw hS hno
  have hlt : n * dynEntSize < u64 := hm ▸ Nat.mod_lt _ (by decide)
  have hold' : rw.copy.oldDynamicSize = n * dynEntSize := hold.trans hm
  obtain ⟨hn, hN⟩ := count_of_writable hw hold' hlt
  have hsl : ctx.searchPath.len < addrSpace := ctx.searchPath.length_lt
  have hpl : ctx.inputPatch.len < addrSpace := ctx.inputPatch.length_lt
  have hol : rw.orig.len < addrSpace := rw.orig.length_lt
  have hA : (writeBytes (signed rw.mem) p.offset ctx.interpPath.withNul).length = obj.mem.length := by
    simp [hlen]
  refine ⟨rw, t, f, writeBytes (signed rw.mem) p.offset ctx.interpPath.withNul ++
    padding sys (rw.newSegment.offset - obj.mem.length), hrw, ht, horig, hf, ?_⟩
  rw [hL]
  refine ⟨rfl, hY, by rw [hns]; rfl, by rw [hns]; rfl, elfPageAlign_lt _ _, hnf.2.2.2.2.2.1, ?_, ⟨hn, hN⟩, ?_, ?_, hoff,
    fun k hk => ?_, fun k hk => (elfSegmentCopy_some hcopy).1 k (Nat.zero_le _) hk,
    fun k hk => (elfSegmentCopy_some hcopy).2 k (.inr hk), ?_⟩
  · rw [hns]; change rw.copy.dynSize = _; rw [hdyn]; unfold dynEntSize newDynCount u64 addrSpace at *; omega
  · change rw.copy.filesz = _
    rw [hfile]; unfold dynEntSize newDynCount u64 addrSpace at *; omega
  · simp only [List.length_append, hA, length_padding]; omega
  · rw [show obj.mem.length + k = (writeBytes (signed rw.mem) p.offset ctx.interpPath.withNul).length + k by
      rw [hA], getElem?_append_add]
    simp [padding, hk]
  · rw [hdata, outputTail_eq hoff hno (by rw [hold', Nat.mod_eq_of_lt hlt]) hn hlt, List.append_assoc]

/-- **What the run writes after the image.** After a run that returns `true` on a well-laid-out
input, with a `rename` that went through, where the `n` entries fit the last `PT_DYNAMIC` `D` before
the first `PT_NOTE`, the bytes from the end of the image up to the new `PT_LOAD`'s `p_offset` are
the zero byte `null` followed by the stack bytes after it, and the output is `p_filesz - 16 n`
bytes shorter than `p_offset + p_filesz`: it reaches exactly that far only when `p_filesz = 16 n`. -/
theorem output_tail_layout (h : (shivaPrelink lib sys ctx obj fs).1 = some true)
    (hr : sys.renameFails = false) (hl : Laid obj.mem)
    (_hwhole : ∀ rw ∈ prelinkRewrite lib sys ctx obj, WritesWhole sys ctx obj.mem.length rw) {d : Nat} {D : ElfSegment}
    (hD : lastOfType ptDynamic (beforeNote obj.mem) = some (d, D))
    (hn : 1 ≤ lib.dtagCount obj.mem) (hF : lib.dtagCount obj.mem * dynEntSize ≤ D.filesz) :
    ∃ (t : Nat) (f : File), noteSlot obj.mem = some t ∧
      (shivaPrelink lib sys ctx obj fs).2 ctx.outputExec = some f ∧
      obj.mem.length ≤ (segmentAt f.data t).offset ∧
      (∀ k < (segmentAt f.data t).offset - obj.mem.length,
        f.data[obj.mem.length + k]? = some (if k = 0 then 0 else sys.afterNull (k - 1))) ∧
      f.data.length + D.filesz =
        (segmentAt f.data t).offset + (segmentAt f.data t).filesz + lib.dtagCount obj.mem * dynEntSize := by
  obtain ⟨rw, t, f, pre, -, ht, -, hf, -, -, hLo, -, -, -, -, -, hfsz, hpre, hS, hpad, -, -, hdata⟩ :=
    shivaPrelink_layout h hr hl hD (count_mod_of_fits h hl hD hF)
  refine ⟨t, f, ht, hf, by rw [hLo]; exact hS, fun k hk => ?_, ?_⟩
  · rw [hLo] at hk
    rw [hdata, List.getElem?_append_left (by omega)]
    exact hpad k hk
  · rw [hfsz, hLo, hdata]
    simp only [List.length_append, List.length_map, List.length_range, length_shivaDyn, CStr.length_withNul]
    unfold dynEntSize newDynCount at *
    rw [hpre, Nat.sub_mul]
    have := Nat.mul_le_mul_right 16 hn
    omega

theorem load_output_tail_layout :
    (shivaPrelink sampleLib sampleSys sampleCtx loadObj loadFs).1 = some true ∧ Laid loadObj.mem ∧
      (∀ rw ∈ prelinkRewrite sampleLib sampleSys sampleCtx loadObj, WritesWhole sampleSys sampleCtx loadObj.mem.length rw) ∧
      lastOfType ptDynamic (beforeNote loadObj.mem) = some (2, ⟨ptDynamic, 6, 348, 348, 348, 48, 48, 8⟩) ∧
      ∃ (t : Nat) (f : File), noteSlot loadObj.mem = some t ∧
        (shivaPrelink sampleLib sampleSys sampleCtx loadObj loadFs).2 sampleCtx.outputExec = some f ∧
        loadObj.mem.length ≤ (segmentAt f.data t).offset ∧
        (∀ k < (segmentAt f.data t).offset - loadObj.mem.length,
          f.data[loadObj.mem.length + k]? = some (if k = 0 then 0 else sampleSys.afterNull (k - 1))) ∧
        f.data.length + 48 =
          (segmentAt f.data t).offset + (segmentAt f.data t).filesz + sampleLib.dtagCount loadObj.mem * dynEntSize := by
  have hD : lastOfType ptDynamic (beforeNote loadObj.mem) = some (2, ⟨ptDynamic, 6, 348, 348, 348, 48, 48, 8⟩) := by
    decide
  exact ⟨load_run, load_laid, load_writesWhole, hD,
    output_tail_layout load_run rfl load_laid load_writesWhole hD (by decide) (by decide)⟩

set_option maxRecDepth 10000 in
/-- The run on `loadImage`, a linker's layout, returns `true`, yet the padding after the 460-byte
image holds the stack byte `0xAA` at offset 461, and the new `PT_LOAD` claims 4203 bytes of a
4187-byte file, because its `PT_DYNAMIC` is 48 bytes long for two entries. -/
theorem load_output_padding :
    (shivaPrelink sampleLib sampleSys sampleCtx loadObj loadFs).1 = some true ∧
    ∃ f, (shivaPrelink sampleLib sampleSys sampleCtx loadObj loadFs).2 sampleCtx.outputExec = some f ∧
      f.data[461]? = some 0xAA ∧ f.data.length = 4187 ∧
      (segmentAt f.data 3).offset + (segmentAt f.data 3).filesz = 4203 := by
  have hD : lastOfType ptDynamic (beforeNote loadObj.mem) = some (2, ⟨ptDynamic, 6, 348, 348, 348, 48, 48, 8⟩) := by
    decide
  obtain ⟨rw, t, f, pre, hrw, ht, horig, hf, -, -, hLo, -, -, -, -, -, hfsz, hpre, -, hpad, -, -, hdata⟩ :=
    shivaPrelink_layout load_run rfl load_laid hD (Nat.mod_eq_of_lt (by decide))
  have hfacts : (prelinkRewrite sampleLib sampleSys sampleCtx loadObj).map
      (fun rw => (rw.newSegment.offset, rw.orig.len)) = some (4096, 3) := by decide
  rw [hrw, Option.map_some', Option.some.injEq, Prod.mk.injEq] at hfacts
  obtain rfl : t = 3 := Option.some.inj (ht.symm.trans (by decide))
  refine ⟨load_run, f, hf, ?_, ?_, ?_⟩
  · rw [hdata, List.getElem?_append_left (by rw [hpre, hfacts.1]; decide)]
    exact hpad 1 (by rw [hfacts.1]; decide)
  · rw [hdata]
    simp only [List.length_append, List.length_map, List.length_range, length_shivaDyn, CStr.length_withNul, hpre,
      hfacts.1, hfacts.2]
    rfl
  · rw [hLo, hfsz, hfacts.1, hfacts.2]
    rfl

/-- **What the third write copies.** After a run that returns `true` on a well-laid-out input,
with a `rename` that went through, for a count `n` of entries whose bytes fit in memory, the
`16 (n - 1)` bytes at the start of the new `PT_DYNAMIC` are the bytes of the last `PT_DYNAMIC`
`D` before the first `PT_NOTE`, as `elf_read_address` reads them, up to `copiedLength p_filesz`;
then zeros up to `p_filesz` (the last qword, when `p_filesz` is a multiple of eight); then, past
`p_filesz`, the heap bytes after the `calloc`ed buffer. -/
theorem output_old_entries (h : (shivaPrelink lib sys ctx obj fs).1 = some true)
    (hr : sys.renameFails = false) (hl : Laid obj.mem)
    (_hwhole : ∀ rw ∈ prelinkRewrite lib sys ctx obj, WritesWhole sys ctx obj.mem.length rw) {d : Nat} {D : ElfSegment}
    (hD : lastOfType ptDynamic (beforeNote obj.mem) = some (d, D))
    (hN : lib.dtagCount obj.mem * dynEntSize < addrSpace) :
    ∃ f : File, (shivaPrelink lib sys ctx obj fs).2 ctx.outputExec = some f ∧
      ∀ k < (lib.dtagCount obj.mem - 1) * dynEntSize,
        f.data[(segmentAt f.data d).offset + k]? =
          if k < copiedLength D.filesz then elfReadByte obj.mem ((D.vaddr + k) % u64)
          else some (if k < D.filesz then 0 else sys.afterCopy (k - D.filesz)) := by
  obtain ⟨rw, t, f, pre, -, -, -, hf, -, hY, -, -, -, -, -, -, -, hpre, -, -, hread, hpast, hdata⟩ :=
    shivaPrelink_layout h hr hl hD (Nat.mod_eq_of_lt (by unfold u64 addrSpace at *; omega))
  refine ⟨f, hf, fun k hk => ?_⟩
  rw [hY, hdata, show (dynSegment rw.newSegment).offset + k = pre.length + k by rw [hpre]; rfl, getElem?_append_add,
    List.getElem?_append_left (by simpa using hk), List.getElem?_map, List.getElem?_range hk, Option.map_some']
  split_ifs with h₁ h₂
  · exact (hread k h₁).symm
  · rw [hpast k (by omega), if_pos h₂]
  · rw [hpast k (by omega), if_neg h₂]

/-- As `sampleLib`, but `elf_dtag_count` is 5, more entries than the sample's 48-byte
`PT_DYNAMIC` holds. -/
def overLib : Libelf := ⟨fun _ => true, fun _ => 5⟩

set_option maxRecDepth 10000 in
/-- With five entries counted in a 48-byte `PT_DYNAMIC`, the run returns `true` and its new dynamic
array starts with 40 bytes of the segment, 8 zeros, and 16 bytes from past the buffer. -/
theorem over_output_old_entries :
    (shivaPrelink overLib sampleSys sampleCtx sampleObj sampleFs).1 = some true ∧
      lastOfType ptDynamic (beforeNote sampleObj.mem) = some (1, ⟨ptDynamic, 6, 348, 348, 348, 48, 48, 8⟩) ∧
      ∃ f : File, (shivaPrelink overLib sampleSys sampleCtx sampleObj sampleFs).2 sampleCtx.outputExec = some f ∧
        ∀ k < (overLib.dtagCount sampleObj.mem - 1) * dynEntSize,
          f.data[(segmentAt f.data 1).offset + k]? =
            if k < copiedLength 48 then elfReadByte sampleObj.mem ((348 + k) % u64)
            else some (if k < 48 then 0 else sampleSys.afterCopy (k - 48)) := by
  have hfacts : (prelinkRewrite overLib sampleSys sampleCtx sampleObj).map
      (fun rw => (rw.newSegment.offset, rw.copy.oldDynamicSize, rw.orig.len, rw.mem.length)) = some (464, 80, 3, 460) := by
    decide
  have hrun : (shivaPrelink overLib sampleSys sampleCtx sampleObj sampleFs).1 = some true :=
    sample_run_of rfl sample_laid rfl rfl hfacts (by decide) (by decide)
  have hD : lastOfType ptDynamic (beforeNote sampleObj.mem) = some (1, ⟨ptDynamic, 6, 348, 348, 348, 48, 48, 8⟩) := by
    decide
  exact ⟨hrun, hD, output_old_entries hrun rfl sample_laid (writesWhole_of_rewrite hfacts (by decide)) hD (by decide)⟩

/-- **The Shiva dynamic metadata reads back.** A run that returns `true` on a well-laid-out input,
with a `rename` that went through, where `n = elf_dtag_count` is at least one and the `n` entries
fit the last `PT_DYNAMIC` `D` before the first `PT_NOTE`, leaves an output in which that header
covers `(n + 3) * 16` bytes at the start of the new `PT_LOAD`: the first `n - 1` entries of `D` as
the loader maps it, then the three Shiva entries and `DT_NULL`, and the three Shiva entries
point, through the new `PT_LOAD`, at the search path, the patch name and the input's original
interpreter path. -/
theorem dynamic_roundtrip (h : (shivaPrelink lib sys ctx obj fs).1 = some true)
    (hr : sys.renameFails = false) (hl : Laid obj.mem)
    (_hwhole : ∀ rw ∈ prelinkRewrite lib sys ctx obj, WritesWhole sys ctx obj.mem.length rw) {d : Nat} {D : ElfSegment}
    (hD : lastOfType ptDynamic (beforeNote obj.mem) = some (d, D))
    (hn : 1 ≤ lib.dtagCount obj.mem) (hF : lib.dtagCount obj.mem * dynEntSize ≤ D.filesz) :
    ∃ t f orig, noteSlot obj.mem = some t ∧ obj.interpreterPath = some orig ∧
      (shivaPrelink lib sys ctx obj fs).2 ctx.outputExec = some f ∧
      (segmentAt f.data t).type = ptLoad ∧ (segmentAt f.data d).type = ptDynamic ∧
      (segmentAt f.data d).offset = (segmentAt f.data t).offset ∧
      (segmentAt f.data d).vaddr = (segmentAt f.data t).vaddr ∧
      (segmentAt f.data d).filesz = (lib.dtagCount obj.mem + 3) * dynEntSize ∧
      (segmentAt f.data d).filesz ≤ (segmentAt f.data t).filesz ∧
      (∀ k < (lib.dtagCount obj.mem - 1) * dynEntSize,
        f.data[(segmentAt f.data d).offset + k]? = elfReadByte obj.mem ((D.vaddr + k) % u64)) ∧
      ∃ a₁ a₂ a₃,
        slice f.data ((segmentAt f.data d).offset + (lib.dtagCount obj.mem - 1) * dynEntSize)
            (4 * dynEntSize) =
          ([⟨shivaDtSearch, a₁⟩, ⟨shivaDtNeeded, a₂⟩, ⟨shivaDtOrigInterp, a₃⟩, ⟨dtNull, 0⟩] :
            List ElfDyn).flatMap ElfDyn.encode ∧
        StringAt f.data (segmentAt f.data t) a₁ ctx.searchPath ∧
        StringAt f.data (segmentAt f.data t) a₂ ctx.inputPatch ∧
        StringAt f.data (segmentAt f.data t) a₃ orig := by
  obtain ⟨rw, t, f, pre, -, ht, horig, hf, hLt, hY, hLo, hLv, hvl, hfl, hdsz, -, hfsz, hpre, -, -, hold, -, hdata⟩ :=
    shivaPrelink_layout h hr hl hD (count_mod_of_fits h hl hD hF)
  have hfx : rw.newSegment.dynSize + (ctx.searchPath.len + 1) + (ctx.inputPatch.len + 1) + (rw.orig.len + 1) ≤
      (segmentAt f.data t).filesz := by
    rw [hfsz, hdsz]; unfold dynEntSize newDynCount at *; omega
  have hol : ((List.range ((lib.dtagCount obj.mem - 1) * dynEntSize)).map rw.copy.oldDynamicSegment).length =
    (lib.dtagCount obj.mem - 1) * dynEntSize := by simp
  obtain ⟨hs₁, hs₂, hs₃⟩ := stringsAt_shivaDyn (hdata.trans (List.append_assoc _ _ _).symm) hLv hvl hfl
    (by rw [List.length_append, hpre, hol, hdsz, hLo]; unfold dynEntSize at *; omega) (by omega)
  refine ⟨t, f, rw.orig, ht, horig, hf, ?_⟩
  rw [hY]
  refine ⟨hLt, rfl, hLo.symm, hLv.symm, hdsz, show rw.newSegment.dynSize ≤ _ by omega, fun k hk => ?_, _, _, _, ?_, hs₁, hs₂, hs₃⟩
  · rw [hdata, show (dynSegment rw.newSegment).offset + k = pre.length + k by rw [hpre]; rfl, getElem?_append_add,
      List.getElem?_append_left (by rw [hol]; exact hk), List.getElem?_map, List.getElem?_range hk]
    exact (hold k (lt_copiedLength_of_fits hn hF hk)).symm
  · rw [hdata, ← List.append_assoc, show (dynSegment rw.newSegment).offset + (lib.dtagCount obj.mem - 1) * dynEntSize =
      (pre ++ (List.range ((lib.dtagCount obj.mem - 1) * dynEntSize)).map rw.copy.oldDynamicSegment).length + 0 by
      rw [List.length_append, hpre, hol]; rfl, slice_append_right,
      slice_append_of_le (by rw [length_shivaDyn]; omega), slice, List.drop_zero,
      List.take_of_length_le (length_shivaDyn _ _).le]
    rfl

theorem sample_dynamic_roundtrip :
    (shivaPrelink sampleLib sampleSys sampleCtx sampleObj sampleFs).1 = some true ∧
      sampleSys.renameFails = false ∧ Laid sampleObj.mem ∧
      (∀ rw ∈ prelinkRewrite sampleLib sampleSys sampleCtx sampleObj,
        WritesWhole sampleSys sampleCtx sampleObj.mem.length rw) ∧
      lastOfType ptDynamic (beforeNote sampleObj.mem) = some (1, ⟨ptDynamic, 6, 348, 348, 348, 48, 48, 8⟩) ∧
      1 ≤ sampleLib.dtagCount sampleObj.mem ∧ sampleLib.dtagCount sampleObj.mem * dynEntSize ≤ 48 ∧
      ∃ t f orig, noteSlot sampleObj.mem = some t ∧ sampleObj.interpreterPath = some orig ∧
        (shivaPrelink sampleLib sampleSys sampleCtx sampleObj sampleFs).2 sampleCtx.outputExec = some f ∧
        (segmentAt f.data t).type = ptLoad ∧ (segmentAt f.data 1).type = ptDynamic ∧
        (segmentAt f.data 1).offset = (segmentAt f.data t).offset ∧
        (segmentAt f.data 1).vaddr = (segmentAt f.data t).vaddr ∧
        (segmentAt f.data 1).filesz = (sampleLib.dtagCount sampleObj.mem + 3) * dynEntSize ∧
        (segmentAt f.data 1).filesz ≤ (segmentAt f.data t).filesz ∧
        (∀ k < (sampleLib.dtagCount sampleObj.mem - 1) * dynEntSize,
          f.data[(segmentAt f.data 1).offset + k]? = elfReadByte sampleObj.mem ((348 + k) % u64)) ∧
        ∃ a₁ a₂ a₃,
          slice f.data ((segmentAt f.data 1).offset + (sampleLib.dtagCount sampleObj.mem - 1) * dynEntSize)
              (4 * dynEntSize) =
            ([⟨shivaDtSearch, a₁⟩, ⟨shivaDtNeeded, a₂⟩, ⟨shivaDtOrigInterp, a₃⟩, ⟨dtNull, 0⟩] :
              List ElfDyn).flatMap ElfDyn.encode ∧
          StringAt f.data (segmentAt f.data t) a₁ sampleCtx.searchPath ∧
          StringAt f.data (segmentAt f.data t) a₂ sampleCtx.inputPatch ∧
          StringAt f.data (segmentAt f.data t) a₃ orig := by
  have hD : lastOfType ptDynamic (beforeNote sampleObj.mem) = some (1, ⟨ptDynamic, 6, 348, 348, 348, 48, 48, 8⟩) := by
    decide
  exact ⟨sample_run, rfl, sample_laid, sample_writesWhole, hD, by decide, by decide,
    dynamic_roundtrip sample_run rfl sample_laid sample_writesWhole hD (by decide) (by decide)⟩

/-- The sample with its `PT_INTERP` pointing into the program headers, at the `p_offset` of
`PT_DYNAMIC`: the input is not well laid out. -/
def interpOverDynImage : List UInt8 := writeBytes sampleImage 72 (leBytes 8 128)

theorem length_interpOverDynImage : interpOverDynImage.length = 460 := by
  rw [interpOverDynImage, length_writeBytes, length_sampleImage]

def interpOverDynObj : ElfObj := ⟨"a.out", interpOverDynImage, by rw [length_interpOverDynImage]; decide⟩

set_option maxRecDepth 10000 in
/-- Both runs return `true`, and in neither does the output's `PT_DYNAMIC` sit at the start of a new
`PT_LOAD`: when `rename` fails the older file stays at `output_exec` and is the one reopened; when
the `PT_INTERP` string overlaps the `PT_DYNAMIC` header, copying `interp_path` over it moves
`PT_DYNAMIC` to offset `0x732f`. -/
theorem roundtrip_fails_stale_or_overlapping :
    ((shivaPrelink sampleLib staleSys sampleCtx sampleObj staleFs).1 = some true ∧
      Laid sampleObj.mem ∧
      lastOfType ptDynamic (beforeNote sampleObj.mem) = some (1, ⟨ptDynamic, 6, 348, 348, 348, 48, 48, 8⟩) ∧
      ¬ ∃ t f, noteSlot sampleObj.mem = some t ∧
        (shivaPrelink sampleLib staleSys sampleCtx sampleObj staleFs).2 sampleCtx.outputExec = some f ∧
        (segmentAt f.data t).type = ptLoad) ∧
    ((shivaPrelink sampleLib sampleSys sampleCtx interpOverDynObj sampleFs).1 = some true ∧
      sampleSys.renameFails = false ∧
      lastOfType ptDynamic (beforeNote interpOverDynObj.mem) =
        some (1, ⟨ptDynamic, 6, 348, 348, 348, 48, 48, 8⟩) ∧
      ¬ ∃ t f, noteSlot interpOverDynObj.mem = some t ∧
        (shivaPrelink sampleLib sampleSys sampleCtx interpOverDynObj sampleFs).2 sampleCtx.outputExec = some f ∧
        (segmentAt f.data 1).offset = (segmentAt f.data t).offset) := by
  have hs : ((shivaPrelink sampleLib staleSys sampleCtx sampleObj staleFs).1,
      ((shivaPrelink sampleLib staleSys sampleCtx sampleObj staleFs).2 "a.shiva").map
        fun f => (segmentAt f.data 2).type) = (some true, some ptNote) := by decide
  have ho : ((shivaPrelink sampleLib sampleSys sampleCtx interpOverDynObj sampleFs).1,
      ((shivaPrelink sampleLib sampleSys sampleCtx interpOverDynObj sampleFs).2 "a.shiva").map
        fun f => ((segmentAt f.data 1).offset, (segmentAt f.data 2).offset)) = (some true, some (0x732f, 464)) := by
    decide
  have ht : noteSlot sampleObj.mem = some 2 := by decide
  have ht' : noteSlot interpOverDynObj.mem = some 2 := by decide
  simp only [Prod.mk.injEq] at hs ho
  refine ⟨⟨hs.1, sample_laid, by decide, ?_⟩, ⟨ho.1, rfl, by decide, ?_⟩⟩
  · rintro ⟨t, f, htf, hf, hL⟩
    rw [ht, Option.some_inj] at htf
    rw [show sampleCtx.outputExec = "a.shiva" from rfl] at hf
    rw [hf] at hs
    subst htf
    simp only [Option.map_some', Option.some.injEq, hL] at hs
    exact absurd hs.2 (by decide)
  · rintro ⟨t, f, htf, hf, hL⟩
    rw [ht', Option.some_inj] at htf
    rw [show sampleCtx.outputExec = "a.shiva" from rfl] at hf
    rw [hf] at ho
    subst htf
    simp only [Option.map_some', Option.some.injEq, Prod.mk.injEq] at ho
    omega

/-- The dynamic array of the output, decoded entry by entry, for `16 n` the `old_dynamic_size`:
the first `n - 1` entries of the copy of `D`, then `dyn[0..3]`. The string `DT_SHIVA_ORIG_INTERP`
points at reads, through the new `PT_LOAD`, as the original interpreter path. -/
theorem shivaPrelink_entries (h : (shivaPrelink lib sys ctx obj fs).1 = some true)
    (hr : sys.renameFails = false) (hl : Laid obj.mem) {d : Nat} {D : ElfSegment}
    (hD : lastOfType ptDynamic (beforeNote obj.mem) = some (d, D)) {n : Nat}
    (hm : lib.dtagCount obj.mem * dynEntSize % u64 = n * dynEntSize) :
    ∃ (rw : Rewrite) (t : Nat) (f : File), prelinkRewrite lib sys ctx obj = some rw ∧
      noteSlot obj.mem = some t ∧ obj.interpreterPath = some rw.orig ∧
      (shivaPrelink lib sys ctx obj fs).2 ctx.outputExec = some f ∧
      dynEntries f.data (segmentAt f.data d) =
        dynArray ((List.range ((n - 1) * dynEntSize)).map rw.copy.oldDynamicSegment) (n - 1) ++
          shivaDyn ctx rw.newSegment ∧
      cStringBytes f.data (fileOffset (segmentAt f.data t)
        ((rw.newSegment.vaddr + rw.newSegment.dynSize + ctx.searchPath.len + 1 + ctx.inputPatch.len + 1) % u64)) =
        rw.orig.bytes := by
  obtain ⟨rw, t, f, pre, hrw, ht, horig, hf, -, hY, hLo, hLv, hvl, -, hdsz, ⟨hn, hN⟩, -, hpre, -, -, -, -, hdata⟩ :=
    shivaPrelink_layout h hr hl hD hm
  set old := (List.range ((n - 1) * dynEntSize)).map rw.copy.oldDynamicSegment
  have hol : old.length = (n - 1) * dynEntSize := by simp [old]
  have hfit : ∀ x ∈ shivaDyn ctx rw.newSegment, x.tag < u64 ∧ x.val < u64 := by
    simp only [shivaDyn, List.mem_cons, List.mem_singleton, List.not_mem_nil, or_false]
    rintro x (rfl | rfl | rfl | rfl)
    iterate 3 exact ⟨by dsimp only; decide, Nat.mod_lt _ (by decide)⟩
    exact ⟨by dsimp only; decide, by dsimp only; decide⟩
  have hsl := ctx.searchPath.length_lt
  have hpl := ctx.inputPatch.length_lt
  refine ⟨rw, t, f, hrw, ht, horig, hf, ?_, cStringBytes_origInterp (hdata.trans (List.append_assoc _ _ _).symm)
    hLv hvl (by rw [List.length_append, hpre, hol, hdsz, hLo]; unfold dynEntSize at *; omega)
    (by rw [hdsz]; unfold CStr.len dynEntSize u64 addrSpace at *; omega)⟩
  rw [dynEntries, hY, hdata, show (dynSegment rw.newSegment).offset = pre.length from hpre.symm,
    List.drop_left, show (dynSegment rw.newSegment).filesz / dynEntSize = n - 1 + 4 by
      change rw.newSegment.dynSize / _ = _; rw [hdsz]; unfold dynEntSize; omega,
    dynArray_append hol, show 4 = (shivaDyn ctx rw.newSegment).length from rfl, dynArray_flatMap_encode _ hfit]

end Roundtrip

end Shiva
