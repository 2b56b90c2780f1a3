import Shiva.Libelf

/-!
# Files and system calls

The part of the operating system a run of `shiva-ld` touches: the files at each path and the
calls `stat`, `mkstemp`, `write`, `fchown`, `fchmod` and `rename`. What the world outside the
program decides (which calls fail, which name `mkstemp` picks, what memory lies past a buffer the
code over-reads, what an uninitialised local holds) is a `Sys` record the run reads.

* `File`, `Fs`, `Sys`, `Alloc`; `resolvePath`, `Fs.lookup`: the name the kernel finds for a path,
  and the file a path names;
* `statFile`, `mkstemp`, `appendFile`, `writeChunks`, `chown`, `chmod`, `rename`;
* `writeChunks_eq`, `writable_of_writeChunks`, `writeChunks_frame`: the writes reach the temporary
  file and nothing else.

A `write` to a regular file either stores all its bytes or fails. The real call stores at most
`MAX_RW_COUNT` bytes, and stops at the first unmapped byte of its buffer, returning a short count
that `shiva_prelink` does not check; `WritesWhole` (in `Shiva.Prelink`) is the bound under which the
two agree, and the theorems about the bytes of the output state it.
-/

namespace Shiva

/-- A file: its bytes, its owner and group, and its mode. -/
structure File where
  data : List UInt8
  uid : Nat
  gid : Nat
  mode : Nat
deriving DecidableEq

/-- The file under each name. A file is keyed by the name `resolvePath` gives the paths that reach
it: absolute, with no empty, `.` or `..` component. The model's namespace has no symbolic or hard
links, so a file has one name, and two paths name one file exactly when they resolve to one name. -/
abbrev Fs := String → Option File

/-- One component of a path, walked from the directory `dir` (its components, innermost first):
an empty component and `.` stay, `..` goes up (and stays at the root), a name goes down. -/
def resolveStep (dir : List (List Char)) (c : List Char) : List (List Char) :=
  if c = [] ∨ c = ['.'] then dir else if c = ['.', '.'] then dir.tail else c :: dir

/-- The name the kernel's lookup finds for the path `p` from the working directory `cwd`: a
relative path starts at `cwd`, an absolute one at the root, and each component is walked in turn.
Whether the inner components are directories is not checked. -/
def resolvePath (cwd p : String) : String :=
  let start := if p.data.head? = some '/' then [] else (cwd.data.splitOn '/').foldl resolveStep []
  ⟨'/' :: ['/'].intercalate ((p.data.splitOn '/').foldl resolveStep start).reverse⟩

/-- Two spellings of one file resolve to one name. -/
example : resolvePath "/w" "./a.out" = resolvePath "/w" "/w//a.out" := by decide

/-- The file the path `p` names from `cwd`: what `access` and `open` find. -/
def Fs.lookup (fs : Fs) (cwd : String) : Fs := fun p => fs (resolvePath cwd p)

/-- An allocation in `shiva_prelink` that can fail. -/
inductive Alloc
  /-- `strdup` of the original interpreter path. -/
  | origInterp
  /-- `calloc` of the copy of the `PT_DYNAMIC` at program header `i`. -/
  | dynamic (i : Nat)
  /-- `strdup` of the input's pathname. -/
  | targetPath
deriving DecidableEq

/-- What the C library and the kernel answer during a run, the bytes that lie past a buffer the
code reads beyond its end, and the values of locals read before they are set. -/
structure Sys where
  allocFails : Alloc → Bool
  statFails : Bool
  /-- The name `mkstemp` creates, or `none` when it fails. -/
  tmpName : Option String
  /-- Whether the `write` numbered `n` in `shiva_prelink` (`1` to `7`) fails. -/
  writeFails : Nat → Bool
  fchownFails : Bool
  fchmodFails : Bool
  renameFails : Bool
  /-- The stack bytes after the one-byte local `null`. -/
  afterNull : Nat → UInt8
  /-- The heap bytes after the copy of `PT_DYNAMIC`. -/
  afterCopy : Nat → UInt8
  /-- `last_load_vaddr`, `last_load_size`, `last_load_align` before a `PT_LOAD` sets them. -/
  initLoadVaddr : UInt64
  initLoadSize : UInt64
  initLoadAlign : UInt64
  /-- The working directory, from which the kernel resolves a relative path. -/
  cwd : String

/-! ## System calls -/

/-- `stat(path, &st)`: the file's owner, group and mode, unless the call fails. -/
def statFile (sys : Sys) (fs : Fs) (path : String) : Option File :=
  if sys.statFails then none else fs path

/-- `mkstemp(template)`: a new empty file under the name the system picks; it fails when that
name is taken. -/
def mkstemp (sys : Sys) (fs : Fs) : Option (String × Fs) :=
  match sys.tmpName with
  | some t => if (fs t).isSome then none else some (t, Function.update fs t (some ⟨[], 0, 0, 0o600⟩))
  | none => none

/-- The file at `t` with `bs` appended. -/
def appendFile (fs : Fs) (t : String) (bs : List UInt8) : Fs :=
  Function.update fs t ((fs t).map fun f => { f with data := f.data ++ bs })

/-- `MAX_RW_COUNT`: the most bytes one `write` stores on Linux, `INT_MAX` rounded down to a page. -/
def maxRwCount : Nat := 0x7ffff000

/-- The numbered writes `write(fd, buf, len)` in turn, each checked `< 0`; the first that fails
ends the sequence. A write of more bytes than memory holds cannot succeed. -/
def writeChunks (sys : Sys) (t : String) : List (Nat × List UInt8) → Fs → Bool × Fs
  | [], fs => (true, fs)
  | (n, bs) :: rest, fs =>
    if sys.writeFails n ∨ addrSpace ≤ bs.length then (false, fs)
    else writeChunks sys t rest (appendFile fs t bs)

/-- `fchown(fd, uid, gid)` on the file at `t`. -/
def chown (fs : Fs) (t : String) (uid gid : Nat) : Fs :=
  Function.update fs t ((fs t).map fun f => { f with uid := uid, gid := gid })

/-- `fchmod(fd, mode)` on the file at `t`. -/
def chmod (fs : Fs) (t : String) (mode : Nat) : Fs :=
  Function.update fs t ((fs t).map fun f => { f with mode := mode })

/-- `rename(src, dst)`: `dst` names what `src` named and `src` is gone; a failed call, a missing
`src` or `src = dst` leaves everything as it was. -/
def rename (sys : Sys) (src dst : String) (fs : Fs) : Fs :=
  if sys.renameFails ∨ (fs src).isNone ∨ src = dst then fs
  else Function.update (Function.update fs dst (fs src)) src none

/-! ## What the writes touch -/

/-- **The writes touch nothing but the temporary file.** -/
theorem writeChunks_frame (sys : Sys) (t : String) {p : String} (hp : p ≠ t) :
    ∀ (cs : List (Nat × List UInt8)) (fs : Fs), (writeChunks sys t cs fs).2 p = fs p
  | [], _ => rfl
  | (n, bs) :: rest, fs => by
    simp only [writeChunks]
    split_ifs
    · rfl
    · rw [writeChunks_frame sys t hp rest, appendFile, Function.update_noteq hp]

theorem appendFile_nil (fs : Fs) (t : String) : appendFile fs t [] = fs := by
  funext p
  by_cases hp : p = t
  · subst hp
    cases h : fs p <;> simp [appendFile, h]
  · rw [appendFile, Function.update_noteq hp]

theorem appendFile_append (fs : Fs) (t : String) (bs cs : List UInt8) :
    appendFile (appendFile fs t bs) t cs = appendFile fs t (bs ++ cs) := by
  funext p
  by_cases hp : p = t
  · subst hp
    cases h : fs p <;> simp [appendFile, h]
  · simp [appendFile, Function.update_noteq hp]

/-- A chunk that `write` stores in full. -/
def Writable (sys : Sys) (c : Nat × List UInt8) : Prop := sys.writeFails c.1 = false ∧ c.2.length < addrSpace

/-- When every write goes through, the temporary file ends with every chunk, in order. -/
theorem writeChunks_eq (sys : Sys) (t : String) :
    ∀ (cs : List (Nat × List UInt8)) (fs : Fs), (∀ c ∈ cs, Writable sys c) →
      writeChunks sys t cs fs = (true, appendFile fs t (cs.map (·.2)).flatten)
  | [], fs, _ => by rw [List.map_nil, List.flatten_nil, appendFile_nil]; rfl
  | (n, bs) :: rest, fs, h => by
    have hw := h (n, bs) (List.mem_cons_self _ _)
    rw [writeChunks, if_neg (by simp [hw.1, hw.2]),
      writeChunks_eq sys t rest _ fun c hc => h c (List.mem_cons_of_mem _ hc), appendFile_append]
    rfl

/-- The writes all report success only when every chunk is stored. -/
theorem writable_of_writeChunks (sys : Sys) (t : String) :
    ∀ (cs : List (Nat × List UInt8)) (fs : Fs), (writeChunks sys t cs fs).1 = true → ∀ c ∈ cs, Writable sys c
  | [], _, _ => by simp
  | (n, bs) :: rest, fs, h => by
    rw [writeChunks] at h
    split_ifs at h with hw
    simp only [not_or, Bool.not_eq_true, not_le] at hw
    intro c hc
    rcases List.mem_cons.mp hc with rfl | hc
    · exact hw
    · exact writable_of_writeChunks sys t rest _ h c hc

end Shiva
