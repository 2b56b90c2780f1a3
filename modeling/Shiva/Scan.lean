import Shiva.Os
import Shiva.SegmentCopy

/-!
# The header rewrite of `shiva_prelink`

Lines 153 to 299 of `shiva-ld.c`: everything `shiva_prelink` does before it opens a file. It
keeps the original interpreter path, walks the program headers once (remembering the last
`PT_LOAD`, copying each `PT_DYNAMIC` it meets) and, at the first `PT_NOTE`, turns that header into
the new `PT_LOAD` and points `PT_DYNAMIC` into it; it then points the first `SHT_DYNAMIC` section
header there too.

* `PrelinkCtx`, `NewSegment`, `LastLoad`, `DynCopy`, `Scan`, `Rewrite`;
* one step per kind of header: `loadStep`, `dynamicStep` (with `dynCopy` and what it records,
  `dynCopy_eq_some`), `noteStep`; the loop `scanLoop`;
* `dynamicSection`, `updateDynamicSection` and `prelinkRewrite`.
-/

namespace Shiva

/-- The fields of `struct shiva_prelink_ctx` that the prelinker reads. -/
structure PrelinkCtx where
  inputExec : String
  inputPatch : CStr
  outputExec : String
  searchPath : CStr
  interpPath : CStr

/-- `ctx->new_segment` once the loop has placed the new `PT_LOAD`. -/
structure NewSegment where
  vaddr : Nat
  offset : Nat
  filesz : Nat
  dynSize : Nat

/-- The locals `last_load_vaddr`, `last_load_size` and `last_load_align`. -/
structure LastLoad where
  vaddr : Nat
  size : Nat
  align : Nat

/-- What the loop records at a `PT_DYNAMIC`: `old_dynamic_size`, the buffer
`old_dynamic_segment`, `dynamic_index`, and the sizes it stores in `ctx->new_segment`. -/
structure DynCopy where
  oldDynamicSize : Nat
  oldDynamicSegment : Nat → UInt8
  dynamicIndex : Nat
  dynSize : Nat
  filesz : Nat

/-- The locals of the program-header loop; `found_dynamic` is `dynamic.isSome`. -/
structure Scan where
  lastLoad : LastLoad
  dynamic : Option DynCopy

/-- The locals on entry to the loop: the `last_load_*` hold whatever the stack held. -/
def Scan.init (sys : Sys) : Scan :=
  ⟨⟨sys.initLoadVaddr.toNat, sys.initLoadSize.toNat, sys.initLoadAlign.toNat⟩, none⟩

section Steps

variable (lib : Libelf) (sys : Sys) (ctx : PrelinkCtx) (obj : ElfObj) (orig : CStr)

/-- A `PT_LOAD`: remember its address and size; the alignment is taken to be `4096`. -/
def loadStep (s : Scan) (seg : ElfSegment) : Scan :=
  { s with lastLoad := ⟨seg.vaddr, seg.memsz, 4096⟩ }

/-- The buffer `calloc(1, filesz)` returns, seen byte by byte: zeros, then whatever follows it. -/
def callocBuf (filesz : Nat) : Nat → UInt8 := fun k => if k < filesz then 0 else sys.afterCopy (k - filesz)

/-- The work at a `PT_DYNAMIC` at header `i`: size the new dynamic array, copy the segment, and
make room for it, the three new entries and the three strings. An allocation that does not fit
in memory fails. -/
def dynCopy (i : Nat) (seg : ElfSegment) : Option DynCopy :=
  let n := lib.dtagCount obj.mem
  if sys.allocFails (.dynamic i) ∨ addrSpace ≤ seg.filesz then none
  else
    (elfSegmentCopy (elfReadByte obj.mem) seg (callocBuf sys seg.filesz)).map fun buf =>
      { oldDynamicSize := n * dynEntSize % u64
        oldDynamicSegment := buf
        dynamicIndex := i
        dynSize := (n * dynEntSize + dynEntSize * newDynCount) % u64
        filesz := (seg.filesz + dynEntSize * newDynCount + (ctx.inputPatch.len + 1) +
          (ctx.searchPath.len + 1) + (orig.len + 1)) % u64 }

/-- What a successful copy at a `PT_DYNAMIC` recorded. -/
theorem dynCopy_eq_some {i : Nat} {seg : ElfSegment} {c : DynCopy}
    (h : dynCopy lib sys ctx obj orig i seg = some c) :
    sys.allocFails (.dynamic i) = false ∧ seg.filesz < addrSpace ∧
      elfSegmentCopy (elfReadByte obj.mem) seg (callocBuf sys seg.filesz) = some c.oldDynamicSegment ∧
      c.oldDynamicSize = lib.dtagCount obj.mem * dynEntSize % u64 ∧ c.dynamicIndex = i ∧
      c.dynSize = (lib.dtagCount obj.mem * dynEntSize + dynEntSize * newDynCount) % u64 ∧
      c.filesz = (seg.filesz + dynEntSize * newDynCount + (ctx.inputPatch.len + 1) +
        (ctx.searchPath.len + 1) + (orig.len + 1)) % u64 := by
  unfold dynCopy at h
  split_ifs at h with h₁
  obtain ⟨buf, hb, rfl⟩ := Option.map_eq_some'.mp h
  simp only [not_or, Bool.not_eq_true, not_le] at h₁
  exact ⟨h₁.1, h₁.2, hb, rfl, rfl, rfl, rfl⟩

/-- A `PT_DYNAMIC` at header `i`. -/
def dynamicStep (s : Scan) (i : Nat) (seg : ElfSegment) : Option Scan :=
  (dynCopy lib sys ctx obj orig i seg).map fun c => { s with dynamic := some c }

/-- `n_segment`: the `PT_NOTE` slot as the new `PT_LOAD`. -/
def nSegment (ll : LastLoad) (c : DynCopy) : ElfSegment where
  type := ptLoad
  flags := pfR ||| pfX ||| pfW
  offset := elfPageAlign obj.mem.length ll.align
  vaddr := elfPageAlign (ll.vaddr + ll.size) ll.align
  paddr := elfPageAlign (ll.vaddr + ll.size) ll.align
  filesz := c.filesz
  memsz := c.filesz
  align := ll.align

theorem nSegment_fits {ll : LastLoad} {c : DynCopy} (hll : ll.align < u64) (hc : c.filesz < u64) :
    (nSegment obj ll c).Fits :=
  ⟨show ptLoad < 2 ^ 32 by decide, show pfR ||| pfX ||| pfW < 2 ^ 32 by decide, elfPageAlign_lt _ _,
    elfPageAlign_lt _ _, elfPageAlign_lt _ _, hc, hc, hll⟩

/-- `dyn_segment`: `PT_DYNAMIC` at the start of the new `PT_LOAD`. -/
def dynSegment (ns : NewSegment) : ElfSegment where
  type := ptDynamic
  flags := pfR ||| pfW
  offset := ns.offset
  vaddr := ns.vaddr
  paddr := ns.vaddr
  filesz := ns.dynSize
  memsz := ns.dynSize
  align := 8

theorem dynSegment_fits {ns : NewSegment} (ho : ns.offset < u64) (hv : ns.vaddr < u64)
    (hd : ns.dynSize < u64) : (dynSegment ns).Fits :=
  ⟨show ptDynamic < 2 ^ 32 by decide, show pfR ||| pfW < 2 ^ 32 by decide, ho, hv, hv, hd, hd,
    show 8 < u64 by decide⟩

/-- What the loop leaves when it breaks at `PT_NOTE`: `ctx->new_segment`, the last
`PT_DYNAMIC`'s copy, and the image with both program headers rewritten. -/
structure Found where
  newSegment : NewSegment
  copy : DynCopy
  mem : List UInt8

/-- `ctx->new_segment` after the `PT_NOTE` branch. -/
def newSegmentOf (ll : LastLoad) (c : DynCopy) : NewSegment :=
  ⟨(nSegment obj ll c).vaddr, (nSegment obj ll c).offset, c.filesz, c.dynSize⟩

/-- A `PT_NOTE` at header `i`: without an earlier `PT_DYNAMIC` the run fails; otherwise header
`i` becomes `n_segment` and header `dynamic_index` becomes `dyn_segment`, and the loop breaks. -/
def noteStep (s : Scan) (i : Nat) : Option Found :=
  match s.dynamic with
  | none => none
  | some c =>
    (elfSegmentModify obj.mem i (nSegment obj s.lastLoad c)).bind fun mem₁ =>
      (elfSegmentModify mem₁ c.dynamicIndex (dynSegment (newSegmentOf obj s.lastLoad c))).map
        fun mem₂ => ⟨newSegmentOf obj s.lastLoad c, c, mem₂⟩

/-- The program-header loop, from the locals `s`, over the headers still to come; `none` is a
`return false`, inside the loop or after it when no `PT_NOTE` was met. -/
def scanLoop : Scan → List (Nat × ElfSegment) → Option Found
  | _, [] => none
  | s, (i, seg) :: rest =>
    if seg.type = ptLoad then scanLoop (loadStep s seg) rest
    else if seg.type = ptDynamic then (dynamicStep lib sys ctx obj orig s i seg).bind (scanLoop · rest)
    else if seg.type = ptNote then noteStep obj s i
    else scanLoop s rest

end Steps

/-- The first `SHT_DYNAMIC` section header, with its index: where the section loop stops. -/
def dynamicSection (mem : List UInt8) : Option (Nat × ElfSection) :=
  (sections mem).find? (·.2.type = shtDynamic)

/-- The `.dynamic` update: the first `SHT_DYNAMIC` section header gets the new segment's offset,
address and dynamic size; an image without one is left as it is. -/
def updateDynamicSection (mem : List UInt8) (ns : NewSegment) : Option (List UInt8) :=
  match dynamicSection mem with
  | some (i, shdr) =>
    elfSectionModify mem i { shdr with offset := ns.offset, address := ns.vaddr, size := ns.dynSize }
  | none => some mem

/-- What the header rewrite hands to the write-out. -/
structure Rewrite where
  /-- The image, with the program headers and the `.dynamic` header rewritten. -/
  mem : List UInt8
  /-- `ctx->orig_interp_path`. -/
  orig : CStr
  newSegment : NewSegment
  copy : DynCopy

/-- Lines 153 to 299 of `shiva_prelink`; `none` is a `return false`. -/
def prelinkRewrite (lib : Libelf) (sys : Sys) (ctx : PrelinkCtx) (obj : ElfObj) : Option Rewrite :=
  match obj.interpreterPath with
  | none => none
  | some orig =>
    if sys.allocFails .origInterp ∨ !elfDynamic obj.mem then none
    else
      (scanLoop lib sys ctx obj orig (Scan.init sys) (segments obj.mem)).bind fun f =>
        (updateDynamicSection f.mem f.newSegment).map fun mem => ⟨mem, orig, f.newSegment, f.copy⟩

end Shiva
