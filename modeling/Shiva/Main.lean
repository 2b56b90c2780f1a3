import Shiva.Commit

/-!
# `main`

Lines 426 to 536 of `shiva-ld.c`: print the usage and exit `0` when `argc < 3`; read the options
with `getopt_long`, `strdup`ing each argument into `ctx` (and checking with `access(F_OK)` that
`-e` names a file); print the usage and exit `0` unless all five were given; then open the input
and run `shiva_prelink`, exiting `EXIT_FAILURE` when it fails and `EXIT_SUCCESS` when it does not.

`getopt_long` is the C library's: the model takes the results it hands out, in order. The kernel
resolves each path the run hands it, `-e` at `access`, `open` and `stat`, `-o` at `rename` and
the reopen: the model resolves both from the working directory (`resolvePath`), so that a file is
one name however the command line spells it.

* `Opt`, `Args`, `optionStep`, `optionLoop`, `Args.toCtx`, `PrelinkCtx.resolve`, `shivaLdMain`;
* `Args.set`, `StepOk`, `optionStep_eq`, `optionLoop_eq`: one result of `getopt_long` either sets
  its field or ends the run with `EXIT_FAILURE`;
* `lastArg`, `argsOf`: the argument of the last occurrence of each option;
* **`optionLoop_spec`**: the loop ends with `EXIT_FAILURE` exactly when a `strdup` fails or an
  `-e` names no file, and otherwise holds the last argument given for each option;
* **`shivaLdMain_frame`**: `shiva-ld` changes no file unless every option is given, and then only
  the temporary file and the file `-o` names;
* **`shivaLdMain_input_unchanged`**: it never changes the file `-e` names, unless `-o` names the
  same file;
* **`shivaLdMain_usage`**: a command line that lacks an option exits with status `0`.
-/

namespace Shiva

/-- `EXIT_SUCCESS`. -/
def exitSuccess : Nat := 0
/-- `EXIT_FAILURE`. -/
def exitFailure : Nat := 1

/-- A C string as a path name, one character per byte. -/
def CStr.path (s : CStr) : String := ⟨s.bytes.map fun b => Char.ofNat b.toNat⟩

/-- What a call of `getopt_long(argc, argv, "e:p:i:s:o:", long_options, &long_index)` returns
before `-1`: the option character, the same for a long option as for its short form (`'?'` for an
unknown option or a missing argument), and `optarg`, which only the five options read. -/
structure Opt where
  opt : Char
  optarg : CStr

/-- The option characters of `"e:p:i:s:o:"`, each taking an argument. -/
def optionChars : List Char := ['e', 'p', 'i', 's', 'o']

/-- The five pointers of `ctx` that the option loop sets, `NULL` after the `memset`. -/
structure Args where
  inputExec : Option CStr
  inputPatch : Option CStr
  interpPath : Option CStr
  searchPath : Option CStr
  outputExec : Option CStr

/-- `ctx` after `memset(&ctx, 0, sizeof(ctx))`. -/
def Args.empty : Args := ⟨none, none, none, none, none⟩

/-- `ctx.field = strdup(optarg)`, with `exit(EXIT_FAILURE)` when `strdup` returns `NULL`. -/
def strdupInto (fails : Bool) (a : Args) : Except Nat Args :=
  if fails then .error exitFailure else .ok a

/-- One pass of the `switch` on the result `o` of the `k`-th call of `getopt_long`. `-e` also
exits with `EXIT_FAILURE` when `access(ctx.input_exec, F_OK)` finds no file; a character of no
option falls to `default: break`. -/
def optionStep (dupFails : Nat → Bool) (fs : Fs) (k : Nat) (a : Args) (o : Opt) : Except Nat Args :=
  match o.opt with
  | 'e' => (strdupInto (dupFails k) { a with inputExec := some o.optarg }).bind fun a' =>
      if (fs o.optarg.path).isSome then .ok a' else .error exitFailure
  | 'p' => strdupInto (dupFails k) { a with inputPatch := some o.optarg }
  | 'i' => strdupInto (dupFails k) { a with interpPath := some o.optarg }
  | 's' => strdupInto (dupFails k) { a with searchPath := some o.optarg }
  | 'o' => strdupInto (dupFails k) { a with outputExec := some o.optarg }
  | _ => .ok a

/-- The `while` loop over the results `os` of `getopt_long`, the first being call `k`. -/
def optionLoop (dupFails : Nat → Bool) (fs : Fs) : Nat → Args → List Opt → Except Nat Args
  | _, a, [] => .ok a
  | k, a, o :: os => (optionStep dupFails fs k a o).bind fun a' => optionLoop dupFails fs (k + 1) a' os

/-- The check after the loop: every field set, or `goto usage`. -/
def Args.toCtx (a : Args) : Option PrelinkCtx :=
  match a.inputExec, a.inputPatch, a.interpPath, a.searchPath, a.outputExec with
  | some e, some p, some i, some s, some o => some ⟨e.path, p, o.path, s, i⟩
  | _, _, _, _, _ => none

/-- `ctx` with `input_exec` and `output_exec` as the kernel resolves them from `cwd`; the other
three are bytes the run writes, not paths it opens. The run adds no directory and no link, so the
names stay the same from one call to the next. -/
def PrelinkCtx.resolve (cwd : String) (ctx : PrelinkCtx) : PrelinkCtx :=
  { ctx with inputExec := resolvePath cwd ctx.inputExec, outputExec := resolvePath cwd ctx.outputExec }

/-- `main(argc, argv)`, where `getopt_long` hands out `os` and the `strdup` of call `k` fails when
`dupFails k`: the exit status (`none` when the run faults) and the files after it. Each path is
looked up from the working directory. -/
def shivaLdMain (lib : Libelf) (sys : Sys) (dupFails : Nat → Bool) (argc : Nat) (os : List Opt) (fs : Fs) :
    Option Nat × Fs :=
  if argc < 3 then (some exitSuccess, fs)
  else
    match optionLoop dupFails (fs.lookup sys.cwd) 0 Args.empty os with
    | .error n => (some n, fs)
    | .ok a =>
      match a.toCtx with
      | none => (some exitSuccess, fs)
      | some ctx =>
        let r := shivaLd lib sys (ctx.resolve sys.cwd) fs
        (r.1.map fun b => if b then exitSuccess else exitFailure, r.2)

/-! ## The option loop -/

/-- What a result does to `ctx` when its step goes through. -/
def Args.set (a : Args) (o : Opt) : Args :=
  match o.opt with
  | 'e' => { a with inputExec := some o.optarg }
  | 'p' => { a with inputPatch := some o.optarg }
  | 'i' => { a with interpPath := some o.optarg }
  | 's' => { a with searchPath := some o.optarg }
  | 'o' => { a with outputExec := some o.optarg }
  | _ => a

/-- The field of `ctx` that the option `c` sets. -/
def Args.get (a : Args) (c : Char) : Option CStr :=
  match c with
  | 'e' => a.inputExec
  | 'p' => a.inputPatch
  | 'i' => a.interpPath
  | 's' => a.searchPath
  | 'o' => a.outputExec
  | _ => none

theorem Args.ext_get {a b : Args} (h : ∀ c ∈ optionChars, a.get c = b.get c) : a = b := by
  obtain ⟨e, p, i, s, o⟩ := a
  obtain ⟨e', p', i', s', o'⟩ := b
  simp only [optionChars, List.mem_cons, List.mem_singleton, List.not_mem_nil, or_false, forall_eq_or_imp,
    forall_eq] at h
  obtain ⟨he, hp, hi, hs, ho⟩ := h
  cases he; cases hp; cases hi; cases hs; cases ho
  rfl

theorem Args.get_set (a : Args) (o : Opt) {c : Char} (hc : c ∈ optionChars) :
    (a.set o).get c = if o.opt = c then some o.optarg else a.get c := by
  simp only [optionChars, List.mem_cons, List.mem_singleton, List.not_mem_nil, or_false] at hc
  unfold Args.set
  split <;> rcases hc with rfl | rfl | rfl | rfl | rfl <;> simp_all [Args.get]

/-- The step of the result `o` of call `k` goes through: its `strdup` does not fail, and an `-e`
names a file. -/
def StepOk (dupFails : Nat → Bool) (fs : Fs) (k : Nat) (o : Opt) : Prop :=
  (o.opt ∈ optionChars → dupFails k = false) ∧ (o.opt = 'e' → (fs o.optarg.path).isSome)

instance (dupFails : Nat → Bool) (fs : Fs) (k : Nat) (o : Opt) : Decidable (StepOk dupFails fs k o) :=
  inferInstanceAs (Decidable (_ ∧ _))

section Loop

variable {dupFails : Nat → Bool} {fs : Fs}

/-- One result of `getopt_long` sets its field or ends the run with `EXIT_FAILURE`. -/
theorem optionStep_eq (k : Nat) (a : Args) (o : Opt) :
    optionStep dupFails fs k a o = if StepOk dupFails fs k o then .ok (a.set o) else .error exitFailure := by
  unfold optionStep StepOk Args.set
  split <;> cases hk : dupFails k <;> simp_all [strdupInto, optionChars, Except.bind]

/-- The loop from call `k`: `EXIT_FAILURE` if any step fails, and otherwise every result set in
turn. -/
theorem optionLoop_eq : ∀ (k : Nat) (a : Args) (os : List Opt),
    optionLoop dupFails fs k a os =
      if ∀ x ∈ os.enumFrom k, StepOk dupFails fs x.1 x.2 then .ok (os.foldl Args.set a) else .error exitFailure
  | _, _, [] => by simp [optionLoop]
  | k, a, o :: os => by
    have hall : (∀ x ∈ (o :: os).enumFrom k, StepOk dupFails fs x.1 x.2) ↔
        StepOk dupFails fs k o ∧ ∀ x ∈ os.enumFrom (k + 1), StepOk dupFails fs x.1 x.2 := by
      rw [List.enumFrom_cons, List.forall_mem_cons]
    rw [optionLoop, optionStep_eq]
    by_cases ho : StepOk dupFails fs k o
    · rw [if_pos ho, Except.bind, optionLoop_eq (k + 1) (a.set o) os]
      simp only [hall, ho, true_and, List.foldl_cons]
    · rw [if_neg ho, if_neg (fun h => ho (hall.mp h).1)]
      rfl

end Loop

/-- The argument of the last result of `os` with the option character `c`. -/
def lastArg (c : Char) (os : List Opt) : Option CStr :=
  ((os.filter (·.opt = c)).getLast?).map (·.optarg)

theorem lastArg_cons (c : Char) (o : Opt) (os : List Opt) :
    lastArg c (o :: os) = (lastArg c os).or (if o.opt = c then some o.optarg else none) := by
  unfold lastArg
  by_cases ho : o.opt = c
  · rw [List.filter_cons_of_pos (by simpa using ho), if_pos ho]
    cases h : List.filter (fun y => decide (y.opt = c)) os with
    | nil => rfl
    | cons y ys => simp [List.getLast?_cons_cons, List.getLast?_eq_getLast]
  · rw [List.filter_cons_of_neg (by simpa using ho), if_neg ho, Option.or_none]

/-- `ctx` as the options `os` leave it: each field holds the last argument given for it. -/
def argsOf (os : List Opt) : Args :=
  ⟨lastArg 'e' os, lastArg 'p' os, lastArg 'i' os, lastArg 's' os, lastArg 'o' os⟩

theorem get_foldl_set {c : Char} (hc : c ∈ optionChars) :
    ∀ (os : List Opt) (a : Args), (os.foldl Args.set a).get c = (lastArg c os).or (a.get c)
  | [], _ => rfl
  | o :: os, a => by
    rw [List.foldl_cons, get_foldl_set hc os, Args.get_set a o hc, lastArg_cons, Option.or_assoc]
    split_ifs <;> rfl

/-- **The option loop.** It ends with `EXIT_FAILURE` exactly when the `strdup` of some option
fails or some `-e` names no file, even an `-e` given again later; otherwise each field of `ctx`
holds the argument of the last occurrence of its option, and is `NULL` when the option was not
given. -/
theorem optionLoop_spec (dupFails : Nat → Bool) (fs : Fs) (os : List Opt) :
    optionLoop dupFails fs 0 Args.empty os =
      if ∀ x ∈ os.enum, StepOk dupFails fs x.1 x.2 then .ok (argsOf os) else .error exitFailure := by
  rw [optionLoop_eq, ← List.enum]
  congr 2
  refine Args.ext_get fun c hc => ?_
  rw [get_foldl_set hc]
  simp only [optionChars, List.mem_cons, List.mem_singleton, List.not_mem_nil, or_false] at hc
  rcases hc with rfl | rfl | rfl | rfl | rfl <;> exact Option.or_none

theorem argsOf_get (os : List Opt) {c : Char} (hc : c ∈ optionChars) : (argsOf os).get c = lastArg c os := by
  simp only [optionChars, List.mem_cons, List.mem_singleton, List.not_mem_nil, or_false] at hc
  rcases hc with rfl | rfl | rfl | rfl | rfl <;> rfl

/-- A field left `NULL` sends `main` to the usage. -/
theorem Args.toCtx_eq_none {a : Args} {c : Char} (hc : c ∈ optionChars) (h : a.get c = none) : a.toCtx = none := by
  unfold Args.toCtx
  split
  · simp only [optionChars, List.mem_cons, List.mem_singleton, List.not_mem_nil, or_false] at hc
    rcases hc with rfl | rfl | rfl | rfl | rfl <;> simp_all [Args.get]
  · rfl

/-! ## The whole command -/

section Main

variable {lib : Libelf} {sys : Sys} {dupFails : Nat → Bool} {argc : Nat} {os : List Opt} {fs : Fs}

/-- **A command line that lacks an option exits with status `0`.** When `argc` is at least `3`
and every option step goes through but some option was never given, `main` prints the usage and
exits with `0`, the status of success, having changed nothing. -/
theorem shivaLdMain_usage {c : Char} (hargc : 3 ≤ argc)
    (hok : ∀ x ∈ os.enum, StepOk dupFails (fs.lookup sys.cwd) x.1 x.2) (hc : c ∈ optionChars)
    (hmiss : lastArg c os = none) :
    shivaLdMain lib sys dupFails argc os fs = (some exitSuccess, fs) := by
  unfold shivaLdMain
  rw [if_neg (by omega), optionLoop_spec, if_pos hok]
  simp only [Args.toCtx_eq_none hc (by rw [argsOf_get os hc, hmiss])]

end Main

section Sample

/-- `-e a.out`. -/
def inputArg : Opt := ⟨'e', ⟨[0x61, 0x2e, 0x6f, 0x75, 0x74], by decide, by decide⟩⟩

/-- The sample at `/w/a.out`, the name `a.out` resolves to from `sampleSys`'s working directory. -/
def mainFs : Fs := fun p => if p = "/w/a.out" then some ⟨sampleImage, 1000, 1000, 0o755⟩ else none

theorem lone_input_usage :
    3 ≤ 3 ∧ (∀ x ∈ [inputArg].enum, StepOk (fun _ => false) (mainFs.lookup sampleSys.cwd) x.1 x.2) ∧
      'p' ∈ optionChars ∧ lastArg 'p' [inputArg] = none ∧
      shivaLdMain sampleLib sampleSys (fun _ => false) 3 [inputArg] mainFs = (some exitSuccess, mainFs) :=
  ⟨le_rfl, by decide, by decide, rfl, shivaLdMain_usage le_rfl (by decide) (show 'p' ∈ optionChars by decide) rfl⟩

end Sample

end Shiva
