import Shiva.Scan

/-!
# `shiva_prelink` and `main`

The write-out of `shiva_prelink` (lines 306 to 423 of `shiva-ld.c`) and the part of `main` that
opens the input and calls it.

* `padding`, `shivaDyn`, `outputChunks`, `outputImage`: the seven `write` calls and their bytes;
  `WritesWhole`: the bound under which `write(2)` stores each of them whole;
* `signed`, `finish`: rename, reopen, signature and the `PT_INTERP` overwrite;
* `shivaPrelink`, `shivaLd`.

A run returns `some b` when `shiva_prelink` returns `b`, and `none` when it faults before
returning (`strlen` of a `NULL` interpreter path).
-/

namespace Shiva

/-- `write(fd, &null, len)`: the byte `null`, then the stack bytes that follow it. -/
def padding (sys : Sys) (len : Nat) : List UInt8 :=
  (List.range len).map fun k => if k = 0 then 0 else sys.afterNull (k - 1)

@[simp] theorem length_padding (sys : Sys) (len : Nat) : (padding sys len).length = len := by
  simp [padding]

/-- The entries `dyn[0..3]`: the three Shiva tags, each pointing at its string in the new
segment, and the terminator. -/
def shivaDyn (ctx : PrelinkCtx) (ns : NewSegment) : List ElfDyn :=
  [⟨shivaDtSearch, (ns.vaddr + ns.dynSize) % u64⟩,
   ⟨shivaDtNeeded, (ns.vaddr + ns.dynSize + ctx.searchPath.len + 1) % u64⟩,
   ⟨shivaDtOrigInterp,
     (ns.vaddr + ns.dynSize + ctx.searchPath.len + 1 + ctx.inputPatch.len + 1) % u64⟩,
   ⟨dtNull, 0⟩]

@[simp] theorem length_shivaDyn (ctx : PrelinkCtx) (ns : NewSegment) :
    ((shivaDyn ctx ns).flatMap ElfDyn.encode).length = 4 * dynEntSize := by
  simp [shivaDyn, dynEntSize]

/-- The seven writes to the temporary file, numbered as in the source: the image, the padding up
to the new segment, the old dynamic entries but the last, the four new entries, and the three
strings with their NULs. Lengths are `size_t` differences. -/
def outputChunks (sys : Sys) (ctx : PrelinkCtx) (size : Nat) (rw : Rewrite) :
    List (Nat × List UInt8) :=
  [(1, rw.mem),
   (2, padding sys ((rw.newSegment.offset + u64 - size) % u64)),
   (3, (List.range ((rw.copy.oldDynamicSize + u64 - dynEntSize) % u64)).map rw.copy.oldDynamicSegment),
   (4, (shivaDyn ctx rw.newSegment).flatMap ElfDyn.encode),
   (5, ctx.searchPath.withNul),
   (6, ctx.inputPatch.withNul),
   (7, rw.orig.withNul)]

/-- The bytes of the temporary file after the seven writes. -/
def outputImage (sys : Sys) (ctx : PrelinkCtx) (size : Nat) (rw : Rewrite) : List UInt8 :=
  ((outputChunks sys ctx size rw).map (·.2)).flatten

/-- The seven writes store their whole buffers on Linux: none is longer than `MAX_RW_COUNT`. The
model takes a write that does not fail to store all its bytes, reading the bytes past `null` and
past the copy of `PT_DYNAMIC` from `Sys`, as mapped memory; `write(2)` returns a short count past
`MAX_RW_COUNT` or at an unmapped byte, which goes unnoticed. -/
def WritesWhole (sys : Sys) (ctx : PrelinkCtx) (size : Nat) (rw : Rewrite) : Prop :=
  ∀ c ∈ outputChunks sys ctx size rw, c.2.length ≤ maxRwCount

instance (sys : Sys) (ctx : PrelinkCtx) (size : Nat) (rw : Rewrite) : Decidable (WritesWhole sys ctx size rw) :=
  inferInstanceAs (Decidable (∀ c ∈ _, _))

/-- `*(uint32_t *)&mem[EI_PAD] = SHIVA_SIGNATURE`. -/
def signed (d : List UInt8) : List UInt8 := writeBytes d eiPad (leBytes 4 shivaSignature)

/-- The end of `shiva_prelink`, after `rename`: reopen `output_exec` with
`ELF_LOAD_F_MODIFY|ELF_LOAD_F_STRICT`, write `SHIVA_SIGNATURE` at `EI_PAD`, and copy
`interp_path` over the `PT_INTERP` string if it is no longer. The mapping is shared, so both
writes reach the file. -/
def finish (lib : Libelf) (ctx : PrelinkCtx) (fs : Fs) : Option Bool × Fs :=
  match fs ctx.outputExec with
  | none => (some false, fs)
  | some f =>
    if f.data.length < addrSpace ∧ lib.strictOk f.data then
      match interpSegment f.data with
      | none => (none, Function.update fs ctx.outputExec (some { f with data := signed f.data }))
      | some p =>
        if (cStringBytes (signed f.data) p.offset).length < ctx.interpPath.len then
          (some false, Function.update fs ctx.outputExec (some { f with data := signed f.data }))
        else (some true, Function.update fs ctx.outputExec
          (some { f with data := writeBytes (signed f.data) p.offset ctx.interpPath.withNul }))
    else (some false, fs)

/-- `shiva_prelink(ctx)` on the object `obj` that `main` opened, from the files `fs`. -/
def shivaPrelink (lib : Libelf) (sys : Sys) (ctx : PrelinkCtx) (obj : ElfObj) (fs : Fs) :
    Option Bool × Fs :=
  match prelinkRewrite lib sys ctx obj with
  | none => (some false, fs)
  | some rw =>
    match statFile sys fs obj.path with
    | none => (some false, fs)
    | some st =>
      match mkstemp sys fs with
      | none => (some false, fs)
      | some (t, fs₁) =>
        match writeChunks sys t (outputChunks sys ctx obj.mem.length rw) fs₁ with
        | (false, fs₂) => (some false, fs₂)
        | (true, fs₂) =>
          if sys.fchownFails then (some false, fs₂)
          else
            let fs₃ := chown fs₂ t st.uid st.gid
            if sys.fchmodFails then (some false, fs₃)
            else
              let fs₄ := chmod fs₃ t st.mode
              if sys.allocFails .targetPath then (some false, fs₄)
              else finish lib ctx (rename sys t ctx.outputExec fs₄)

/-- `main` after option parsing: open `input_exec` with
`ELF_LOAD_F_STRICT|ELF_LOAD_F_MODIFY|ELF_LOAD_F_PRIV_MAP` (a private mapping: writes to it never
reach the file) and call `shiva_prelink`. -/
def shivaLd (lib : Libelf) (sys : Sys) (ctx : PrelinkCtx) (fs : Fs) : Option Bool × Fs :=
  match fs ctx.inputExec with
  | none => (some false, fs)
  | some f =>
    if h : f.data.length < addrSpace ∧ lib.strictOk f.data then
      shivaPrelink lib sys ctx ⟨ctx.inputExec, f.data, h.1⟩ fs
    else (some false, fs)

end Shiva
