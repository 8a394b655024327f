/-
`patch`: the lines of the target, where the hunks apply, the lines of the
result, the buffer they leave through, and the replacement of the target
(`user/tools/patch.c`).

The hunks are those `parse_diff` made of the patch. A write may be short or
fail. Runs with `-o` or `--dry-run` write no temporary file and are left out.
-/
import Fortress.Lib.Files

namespace Fortress.Patch

open FileSystem

def PATCH_MAX_PATH : Nat := 256
def PATCH_MAX_ORIG_LINES : Nat := 4096
def PATCH_ORIG_POOL_SIZE : Nat := 262144
def TOOL_BUFFER_SIZE : Nat := 4096

structure Line where
  text : Bytes
  hasNewline : Bool

inductive Op where
  | context (text : Bytes)
  | delete (text : Bytes)
  | add (line : Line)

structure Hunk where
  targetLine : Nat
  ops : List Op

/-! ## The lines of the target -/

/-- The length of a line is kept in 16 bits. -/
def poolLine (raw : Bytes) (hasNewline : Bool) : Line :=
  ⟨(chomp raw).take ((chomp raw).length % 2 ^ 16), hasNewline⟩

/-- `read_stream_into_pool` with `used` bytes and `count` lines in the pool and `raw` of the next line read. -/
def readStreamIntoPool (used count : Nat) (raw : Bytes) : Bytes → Option (List Line)
  | [] =>
    if raw.isEmpty then some []
    else if PATCH_MAX_ORIG_LINES ≤ count then none
    else some [poolLine raw false]
  | c :: cs =>
    if c = 10 then
      if PATCH_MAX_ORIG_LINES ≤ count then none
      else
        let used := used - (raw.length - (chomp raw).length)
        (readStreamIntoPool used (count + 1) [] cs).map (poolLine raw true :: ·)
    else if PATCH_ORIG_POOL_SIZE ≤ used then none
    else readStreamIntoPool (used + 1) count (raw ++ [c]) cs

/-! ## The lines of the result -/

section

variable (lines : List Line)

def matchHunkAt : List Op → Nat → Bool
  | [], _ => true
  | .add _ :: ops, cur => matchHunkAt ops cur
  | .context text :: ops, cur | .delete text :: ops, cur =>
    match lines[cur - 1]? with
    | some line => line.text == text && matchHunkAt ops (cur + 1)
    | none => false

def hunkOrigConsumed (ops : List Op) : Nat :=
  ops.countP fun
    | .add _ => false
    | _ => true

def locateHunk (hunk : Hunk) (minLine : Nat) : Option Nat :=
  let target := max hunk.targetLine minLine
  if matchHunkAt lines hunk.ops target then some target
  else (List.range' 1 100).findSome? fun delta => [target + delta, target - delta].find? fun pos =>
    decide (minLine ≤ pos) && decide (pos ≤ lines.length + 1) && matchHunkAt lines hunk.ops pos

/-- Every hunk with the line it applies at, if all of them have one. -/
def locateHunks : Nat → List Hunk → Option (List (Nat × List Op))
  | _, [] => some []
  | minLine, hunk :: hunks => do
    let pos ← locateHunk lines hunk minLine
    let rest ← locateHunks (pos + hunkOrigConsumed hunk.ops) hunks
    some ((pos, hunk.ops) :: rest)

/-- The lines emitted so far, and the next one of the original. -/
def applyOp (r : List Line × Nat) : Op → List Line × Nat
  | .context _ => (r.1 ++ lines[r.2 - 1]?.toList, r.2 + 1)
  | .delete _ => (r.1, r.2 + 1)
  | .add line => (r.1 ++ [line], r.2)

def patched : Nat → List (Nat × List Op) → List Line
  | cur, [] => lines.drop (cur - 1)
  | cur, (pos, ops) :: hunks =>
    let stop := min pos (lines.length + 1)
    let (out, cur) := ops.foldl (applyOp lines) ((lines.take (stop - 1)).drop (cur - 1), max cur stop)
    out ++ patched cur hunks

end

/-! ## The buffer -/

/-- The bytes in the file and in `s_out_buf`, and whether one of the `calls` writes so far failed. -/
structure Out where
  file : Bytes := []
  buf : Bytes := []
  calls : Nat := 0
  failed : Bool := false

section

variable (writes : Nat → Nat)

/-- The loop of `write_out`, with a step for each byte left; a write that takes no bytes is an error. -/
def writeOut : Nat → Out → Bytes → Bool × Out
  | 0, o, _ => (true, o)
  | n + 1, o, data =>
    if data.isEmpty then (true, o)
    else
      let w := min (writes o.calls) data.length
      if w = 0 then (false, { o with calls := o.calls + 1, failed := true })
      else writeOut n { o with calls := o.calls + 1, file := o.file ++ data.take w } (data.drop w)

def flushOutBuf (o : Out) : Bool × Out :=
  if o.buf.isEmpty then (true, o)
  else
    let (ok, o) := writeOut writes o.buf.length o o.buf
    (ok, { o with buf := [] })

/-- The loop of `emit_out`, with a step for each byte left. -/
def emitOut : Nat → Out → Bytes → Bool × Out
  | 0, o, _ => (true, o)
  | n + 1, o, data =>
    if data.isEmpty then (true, o)
    else
      let (ok, o) := if o.buf.length = TOOL_BUFFER_SIZE then flushOutBuf writes o else (true, o)
      if !ok then (false, o)
      else
        let take := min data.length (TOOL_BUFFER_SIZE - o.buf.length)
        emitOut n { o with buf := o.buf ++ data.take take } (data.drop take)

def Line.bytes (line : Line) : Bytes := line.text ++ if line.hasNewline then [10] else []

/-- `emit_orig_line` and `emit_diff_op`: a flush that fails in the text drops the newline too. -/
def emitLine (o : Out) (line : Line) : Bool × Out := emitOut writes line.bytes.length o line.bytes

/-- The output before the last flush: `patch_main` drops what each line's emission returns. -/
def emitAll (o : Out) (lines : List Line) : Out := lines.foldl (fun o line => (emitLine writes o line).2) o

end

/-! ## Replacing the target -/

/-- What the system calls of a run return. The target itself is opened for writing where the temporary file
cannot be. -/
structure Env where
  opensIn : Bool := true
  readsAll : Bool := true
  opensOut : Bool := true
  opensTarget : Bool := true
  writes : Nat → Nat
  unlinkTmp : Bool := true
  renameOut : Bool × Bool := (true, true)
  unlinkTarget : Bool := true

variable (env : Env) (hunks : List Hunk) (fs : Files) (target : Path)

/-- The lines of the target: none where it is not there or cannot be opened. -/
def Env.origLines : Option (List Line) :=
  match fs target with
  | some content =>
    if env.opensIn then (if env.readsAll then readStreamIntoPool 0 0 [] content else none) else some []
  | none => some []

/-- The lines to be put out, or the status of a run that does not get there. -/
def Env.result : Except Nat (List Line) :=
  if hunks.isEmpty then .error 0
  else
    match env.origLines fs target with
    | none => .error 2
    | some lines =>
      match locateHunks lines 1 hunks with
      | none => .error 1
      | some located =>
        if PATCH_MAX_PATH ≤ target.length + 5 then .error 2 else .ok (patched lines 1 located)

/-- `patch_main` from the parsed hunks on: its status and the files. -/
def patchMain : Nat × Files :=
  let tmp := target ++ tmpSuffix
  match env.result hunks fs target with
  | .error status => (status, fs)
  | .ok lines =>
    let (ok, o) := flushOutBuf env.writes (emitAll env.writes {} lines)
    if env.opensOut then
      let fs := Function.update fs tmp (some o.file)
      if ok then replaceTarget env.renameOut env.unlinkTarget fs tmp target else (2, unlink env.unlinkTmp fs tmp)
    else if env.opensTarget then (if ok then 0 else 2, Function.update fs target (some o.file))
    else (2, fs)

/-- A temporary file is written, and one of the writes to it fails. -/
def WriteFails : Prop :=
  ∃ lines, env.result hunks fs target = .ok lines ∧ env.opensOut = true ∧
    (flushOutBuf env.writes (emitAll env.writes {} lines)).2.failed = true

/-! ## What the writes come to -/

section

/-- Writing `n` bytes from call `c` on ends before call `c'`, with or without an error. -/
inductive Wrote (writes : Nat → Nat) : Nat → Nat → Nat → Bool → Prop
  | done (c : Nat) : Wrote writes c 0 c true
  | failed {c n : Nat} : 0 < n → writes c = 0 → Wrote writes c n (c + 1) false
  | part {c n c' : Nat} {ok : Bool} : 0 < n → 0 < writes c → Wrote writes (c + 1) (n - writes c) c' ok →
      Wrote writes c n c' ok

/-- What the flushes come to when lines of these sizes are emitted, with `fill` bytes emitted since the last flush:
whether one before the last fails, and what the last one returns. A flush that fails drops the rest of its line, and
the last one has the bytes emitted since the one before it. -/
inductive Flushes (writes : Nat → Nat) : Nat → Nat → List Nat → Bool → Bool → Prop
  | last {c fill c' : Nat} {ok : Bool} : Wrote writes c fill c' ok → Flushes writes c fill [] false ok
  | fits {c fill n : Nat} {ns : List Nat} {early ok : Bool} : fill + n ≤ TOOL_BUFFER_SIZE →
      Flushes writes c (fill + n) ns early ok → Flushes writes c fill (n :: ns) early ok
  | full {c fill n c' : Nat} {ns : List Nat} {early ok : Bool} : TOOL_BUFFER_SIZE < fill + n →
      Wrote writes c TOOL_BUFFER_SIZE c' true →
      Flushes writes c' 0 ((fill + n - TOOL_BUFFER_SIZE) :: ns) early ok → Flushes writes c fill (n :: ns) early ok
  | dropped {c fill n c' : Nat} {ns : List Nat} {early ok : Bool} : TOOL_BUFFER_SIZE < fill + n →
      Wrote writes c TOOL_BUFFER_SIZE c' false → Flushes writes c' 0 ns early ok →
      Flushes writes c fill (n :: ns) true ok

variable {writes : Nat → Nat} {c fill n c₁ c₂ : Nat} {ns : List Nat} {ok₁ ok₂ early₁ early₂ : Bool}

theorem Wrote.unique (h₁ : Wrote writes c n c₁ ok₁) (h₂ : Wrote writes c n c₂ ok₂) : c₁ = c₂ ∧ ok₁ = ok₂ := by
  induction h₁ with
  | done =>
    cases h₂ with
    | done => exact ⟨rfl, rfl⟩
    | failed hn | part hn => omega
  | failed hn hw =>
    cases h₂ with
    | done => omega
    | failed => exact ⟨rfl, rfl⟩
    | part _ hw' => omega
  | part hn hw _ ih =>
    cases h₂ with
    | done => omega
    | failed _ hw' => omega
    | part _ _ h => exact ih h

theorem Flushes.unique (h₁ : Flushes writes c fill ns early₁ ok₁) (h₂ : Flushes writes c fill ns early₂ ok₂) :
    early₁ = early₂ ∧ ok₁ = ok₂ := by
  induction h₁ generalizing early₂ with
  | last hw =>
    cases h₂ with
    | last hw' => exact ⟨rfl, (hw.unique hw').2⟩
  | fits hle _ ih =>
    cases h₂ with
    | fits _ h => exact ih h
    | full hlt | dropped hlt => omega
  | full hlt hw _ ih =>
    cases h₂ with
    | fits hle => omega
    | full _ hw' h =>
      obtain ⟨rfl, -⟩ := hw.unique hw'
      exact ih h
    | dropped _ hw' => cases (hw.unique hw').2
  | dropped hlt hw _ ih =>
    cases h₂ with
    | fits hle => omega
    | full _ hw' => cases (hw.unique hw').2
    | dropped _ hw' h =>
      obtain ⟨rfl, -⟩ := hw.unique hw'
      exact ⟨rfl, (ih h).2⟩

/-- The first bytes of a line that fit can be told from its others. -/
theorem Flushes.shift {m : Nat} (h : Flushes writes c (fill + m) (n :: ns) early₁ ok₁) :
    Flushes writes c fill ((m + n) :: ns) early₁ ok₁ := by
  cases h with
  | fits hle h => exact .fits (by omega) (by rwa [← Nat.add_assoc])
  | full hlt hw h => exact .full (by omega) hw (by rwa [← Nat.add_assoc])
  | dropped hlt hw h => exact .dropped (by omega) hw h

variable (writes)

theorem writeOut_wrote (m : Nat) (o : Out) (data : Bytes) (hm : data.length ≤ m) :
    Wrote writes o.calls data.length (writeOut writes m o data).2.calls (writeOut writes m o data).1 ∧
    (writeOut writes m o data).2.failed = (o.failed || !(writeOut writes m o data).1) := by
  induction m generalizing o data with
  | zero =>
    obtain rfl := List.length_eq_zero_iff.1 (Nat.le_zero.1 hm)
    exact ⟨.done _, by simp [writeOut]⟩
  | succ m ih =>
    unfold writeOut
    split
    · next h => simpa [List.isEmpty_iff.1 h] using Wrote.done _
    · next h =>
      have hpos : 0 < data.length := List.length_pos_iff.2 (by simpa using h)
      dsimp only
      split
      · next hw => exact ⟨.failed hpos (by omega), by simp⟩
      · next hw =>
        obtain ⟨hwrote, hfail⟩ := ih { o with calls := o.calls + 1, file := o.file ++ data.take (min _ _) }
          (data.drop (min (writes o.calls) data.length)) (by rw [List.length_drop]; omega)
        refine ⟨.part hpos (by omega) ?_, hfail⟩
        rwa [List.length_drop, show data.length - min (writes o.calls) data.length = data.length - writes o.calls by
          omega] at hwrote

theorem flushOutBuf_wrote (o : Out) :
    Wrote writes o.calls o.buf.length (flushOutBuf writes o).2.calls (flushOutBuf writes o).1 ∧
    (flushOutBuf writes o).2.failed = (o.failed || !(flushOutBuf writes o).1) ∧ (flushOutBuf writes o).2.buf = [] := by
  unfold flushOutBuf
  split
  · next h =>
    have h := List.isEmpty_iff.1 h
    simpa [h] using Wrote.done _
  · obtain ⟨hwrote, hfail⟩ := writeOut_wrote writes _ o o.buf le_rfl
    exact ⟨hwrote, hfail, rfl⟩

/-- What emitting `n` bytes of a line does, as far as the flushes go. -/
structure Emits (o : Out) (n : Nat) (r : Bool × Out) : Prop where
  fits : r.2.buf.length ≤ TOOL_BUFFER_SIZE
  failed : r.2.failed = (o.failed || !r.1)
  flushes : ∀ {ns early ok}, Flushes writes r.2.calls r.2.buf.length ns early ok →
    Flushes writes o.calls o.buf.length (n :: ns) (early || !r.1) ok

theorem Emits.nothing {o : Out} (h : o.buf.length ≤ TOOL_BUFFER_SIZE) : Emits writes o 0 (true, o) :=
  ⟨h, by simp, fun hrest => by simpa using .fits h hrest⟩

theorem emits_of_flush {o o' : Out} {n : Nat} {ok : Bool} (hfull : o.buf.length = TOOL_BUFFER_SIZE) (hpos : 0 < n)
    (h : flushOutBuf writes o = (ok, o')) :
    o'.buf = [] ∧ if ok then ∀ r, Emits writes o' n r → Emits writes o n r else Emits writes o n (false, o') := by
  obtain ⟨hwrote, hfail, hbuf⟩ := flushOutBuf_wrote writes o
  rw [h, hfull] at hwrote
  rw [h] at hfail hbuf
  have hzero : o'.buf.length = 0 := congrArg List.length hbuf
  refine ⟨hbuf, ?_⟩
  cases ok with
  | false =>
    refine ⟨hzero ▸ Nat.zero_le _, hfail, fun hrest => ?_⟩
    rw [hfull, Bool.not_false, Bool.or_true]
    exact .dropped (by omega) hwrote (hzero ▸ hrest)
  | true =>
    intro r hr
    refine ⟨hr.fits, by rw [hr.failed, hfail, Bool.not_true, Bool.or_false], fun hrest => ?_⟩
    rw [hfull]
    exact .full (by omega) hwrote (by rw [Nat.add_sub_cancel_left]; exact hzero ▸ hr.flushes hrest)

theorem emitOut_emits (m : Nat) (o : Out) (data : Bytes) (hm : data.length ≤ m)
    (hfits : o.buf.length ≤ TOOL_BUFFER_SIZE) : Emits writes o data.length (emitOut writes m o data) := by
  induction m generalizing o data with
  | zero =>
    obtain rfl := List.length_eq_zero_iff.1 (Nat.le_zero.1 hm)
    exact .nothing writes hfits
  | succ m ih =>
    unfold emitOut
    split
    · next h => simpa [List.isEmpty_iff.1 h] using Emits.nothing writes hfits
    · next h =>
      have hpos : 0 < data.length := List.length_pos_iff.2 (by simpa using h)
      -- What there is room for goes into the buffer, and then the rest.
      have hroom (o : Out) (hlt : o.buf.length < TOOL_BUFFER_SIZE) : Emits writes o data.length (emitOut writes m
          { o with buf := o.buf ++ data.take (min data.length (TOOL_BUFFER_SIZE - o.buf.length)) }
          (data.drop (min data.length (TOOL_BUFFER_SIZE - o.buf.length)))) := by
        generalize htake : min data.length (TOOL_BUFFER_SIZE - o.buf.length) = take
        have hlen : (o.buf ++ data.take take).length = o.buf.length + take := by
          rw [List.length_append, List.length_take]
          omega
        obtain ⟨hfits, hfail, hrest⟩ := ih { o with buf := o.buf ++ data.take take } (data.drop take)
          (by rw [List.length_drop]; omega) (by rw [hlen]; omega)
        refine ⟨hfits, hfail, fun h => ?_⟩
        have hshift := hrest h
        rw [hlen, List.length_drop] at hshift
        simpa only [show take + (data.length - take) = data.length by omega] using hshift.shift
      by_cases hfull : o.buf.length = TOOL_BUFFER_SIZE
      · rcases hflush : flushOutBuf writes o with ⟨ok, o'⟩
        obtain ⟨hbuf, hemits⟩ := emits_of_flush writes hfull hpos hflush
        rw [if_pos hfull]
        cases ok with
        | false => exact hemits
        | true => exact hemits _ (hroom o' (by rw [hbuf]; decide))
      · rw [if_neg hfull]
        exact hroom o (by omega)

/-- The flushes are those of the sizes of the lines put out. -/
theorem emitAll_flushes (lines : List Line) (o : Out) (hfits : o.buf.length ≤ TOOL_BUFFER_SIZE) :
    ∃ early, Flushes writes o.calls o.buf.length (lines.map (·.bytes.length)) early
        (flushOutBuf writes (emitAll writes o lines)).1 ∧
      (emitAll writes o lines).failed = (o.failed || early) := by
  induction lines generalizing o with
  | nil => exact ⟨false, .last (flushOutBuf_wrote writes o).1, by simp [emitAll]⟩
  | cons line lines ih =>
    have hline := emitOut_emits writes _ o line.bytes le_rfl hfits
    obtain ⟨early, hflushes, hfailed⟩ := ih _ hline.fits
    refine ⟨early || !(emitLine writes o line).1, hline.flushes hflushes, ?_⟩
    rwa [hline.failed, Bool.or_assoc, Bool.or_comm (!_)] at hfailed

end

/-- **A failed write leaves the target alone and gives a nonzero status, unless
a flush before the last one fails and the last one does not**: then it has
only the bytes emitted since, and the target is replaced if it can be, at once
or after it was unlinked, and lost if it can only be unlinked. -/
theorem write_failure_reported_iff :
    (WriteFails env hunks fs target →
      (patchMain env hunks fs target).1 ≠ 0 ∧ (patchMain env hunks fs target).2 target = fs target) ↔
    ∀ lines, env.result hunks fs target = .ok lines → env.opensOut = true →
      Flushes env.writes 0 0 (lines.map (·.bytes.length)) true true →
      env.renameOut = (false, false) ∧ (env.unlinkTarget = false ∨ fs target = none) := by
  cases hres : env.result hunks fs target with
  | error status => simp [WriteFails, hres]
  | ok lines =>
    obtain ⟨early, hflushes, hemitted⟩ := emitAll_flushes env.writes lines {} (Nat.zero_le _)
    have hfailed := (flushOutBuf_wrote env.writes (emitAll env.writes {} lines)).2.1
    have hother := (tmp_ne target).symm
    rcases hflush : flushOutBuf env.writes (emitAll env.writes {} lines) with ⟨ok, o⟩
    rw [hflush] at hflushes hfailed
    have hearly (h : Flushes env.writes 0 0 (lines.map (·.bytes.length)) true true) : early = true ∧ ok = true :=
      hflushes.unique h
    simp only [WriteFails, hres, hflush, Except.ok.injEq, exists_eq_left', forall_eq', patchMain]
    cases hopen : env.opensOut with
    | false => simp
    | true =>
      cases ok with
      | false =>
        have hlast : ¬ Flushes env.writes 0 0 (lines.map (·.bytes.length)) true true := fun h => nomatch (hearly h).2
        simp [hlast, unlink_other _ hother, hother]
      | true =>
        simp only [Bool.not_true, Bool.or_false, hemitted, Bool.false_or] at hfailed
        have hiff : Flushes env.writes 0 0 (lines.map (·.bytes.length)) true true ↔ early = true :=
          ⟨fun h => (hearly h).1, fun h => h ▸ hflushes⟩
        simp only [hfailed, hiff, if_true, true_and, forall_const]
        refine forall_congr' fun _ => ?_
        have hkept := replaceTarget_kept_iff env.renameOut env.unlinkTarget
          (Function.update fs (target ++ tmpSuffix) (some o.file)) (tmp_ne target) o.file (Function.update_self ..)
        rwa [Function.update_of_ne hother] at hkept

/-- The target is `b` on a line of its own, which the patch replaces by a line longer than the buffer. -/
def longLine : Hunk := ⟨1, [.delete [98], .add ⟨List.replicate 4097 97, true⟩]⟩

def fullDisk : Env := { writes := fun _ => 0 }

/-- The flush of the full buffer fails and empties it, so that the last flush has nothing to write. -/
theorem write_failure_unreported :
    let fs : Files := fun _ => some [98, 10]
    WriteFails fullDisk [longLine] fs [102] ∧ (patchMain fullDisk [longLine] fs [102]).1 = 0 ∧
      (patchMain fullDisk [longLine] fs [102]).2 [102] = some [] := by
  refine ⟨⟨_, rfl, rfl, ?_⟩, ?_⟩ <;> decide +kernel

end Fortress.Patch
