/-
`sed -i`: the line reader, the script over the lines it delivers, and the
replacement of the file by the result (`user/tools/sed.c`).

What the system calls return is the environment's: a read may end the input
early, a write may be short or fail, and an open, a rename or an unlink may be
refused and then changes nothing.
The regular expressions and the substitution of a command are functions of the
line, so that the results hold of every script.
-/
import Fortress.Lib.Files

namespace Fortress.Sed

open Function FileSystem

def SED_LINE_CAP : Nat := 65536
def SED_PATH_CAP : Nat := 256

/-! ## Addresses and commands -/

inductive AddrSpec where
  | none
  | lineNum (n : Nat)
  | pattern (regex : Bytes → Bool)
  | lastLine

structure Addr where
  start : AddrSpec := .none
  stop : AddrSpec := .none
  isRange : Bool := false
  negate : Bool := false
  active : Bool := false

/-- `do_substitution` fails where its result does not fit, and otherwise says
what the line becomes if the pattern was there. -/
inductive CmdType where
  | print
  | delete
  | subst (doSubstitution : Bytes → Option (Option Bytes)) (flagP : Bool)

structure Command where
  addr : Addr := {}
  type : CmdType

structure Opts where
  quiet : Bool := false
  bakSuffix : Bytes := []

def matchSingleAddr (spec : AddrSpec) (lineNo : Nat) (isLast : Bool) (line : Bytes) : Bool :=
  match spec with
  | .none => true
  | .lineNum n => lineNo == n
  | .lastLine => isLast
  | .pattern regex => regex line

/-- `eval_address`: whether the command runs, and the address with its range opened or closed. -/
def evalAddress (a : Addr) (lineNo : Nat) (isLast : Bool) (line : Bytes) : Bool × Addr :=
  match a.start with
  | .none => (!a.negate, a)
  | start =>
    let past := match a.stop with
      | .lineNum n => decide (n ≤ lineNo)
      | _ => false
    let (matched, active) :=
      if !a.isRange then (matchSingleAddr start lineNo isLast line, a.active)
      else if !a.active then
        if matchSingleAddr start lineNo isLast line then (true, !past) else (false, false)
      else (true, !matchSingleAddr a.stop lineNo isLast line)
    (matched != a.negate, { a with active })

/-! ## Writing -/

/-- What a write of some bytes returns once others are in the file; `none` is an error. -/
abbrev Writes := Bytes → Bytes → Option Nat

/-- A short write is an error to its caller. -/
def sysWrite (w : Writes) (out data : Bytes) : Option Bytes :=
  if w out data = some data.length then some (out ++ data) else none

def writeOutputLine (w : Writes) (out line : Bytes) : Option Bytes :=
  if line.isEmpty then sysWrite w out [10]
  else do sysWrite w (← sysWrite w out line) [10]

/-- `process_line`'s loop: the commands with their ranges moved on, the line unless it was deleted, and the output. -/
def runCommands (w : Writes) (lineNo : Nat) (isLast : Bool) :
    List Command → Bytes → Bytes → Option (List Command × Option Bytes × Bytes)
  | [], line, out => some ([], some line, out)
  | cmd :: cmds, line, out =>
    let (hit, addr) := evalAddress cmd.addr lineNo isLast line
    let next (line out : Bytes) := do
      let (cs, line, out) ← runCommands w lineNo isLast cmds line out
      some ({ cmd with addr } :: cs, line, out)
    if !hit then next line out
    else
      match cmd.type with
      | .print => do next line (← writeOutputLine w out line)
      | .delete => some ({ cmd with addr } :: cmds, none, out)
      | .subst doSubstitution flagP => do
        match ← doSubstitution line with
        | none => next line out
        | some line => if flagP then do next line (← writeOutputLine w out line) else next line out

def processLine (w : Writes) (opts : Opts) (cmds : List Command) (line : Bytes) (lineNo : Nat)
    (isLast : Bool) (out : Bytes) : Option (List Command × Bytes) := do
  let (cmds, line, out) ← runCommands w lineNo isLast cmds line out
  match line with
  | some line => if opts.quiet then some (cmds, out) else do some (cmds, ← writeOutputLine w out line)
  | none => some (cmds, out)

/-- `process_single_stream` on the lines the reader gives; `none` is a nonzero result. -/
def processSingleStream (w : Writes) (opts : Opts) : List Command → Nat → List Bytes → Bytes → Option Bytes
  | _, _, [], out => some out
  | cmds, lineNo, line :: lines, out => do
    let (cmds, out) ← processLine w opts cmds line (lineNo + 1) lines.isEmpty out
    processSingleStream w opts cmds (lineNo + 1) lines out

/-! ## Reading -/

/-- `reader_read_line` until it returns false: at the end of the bytes, or at a
line that does not fit, which its caller cannot tell apart. -/
def readLines (line : Bytes) : Bytes → List Bytes
  | [] => if line.isEmpty then [] else [chomp line]
  | c :: cs =>
    if c == 10 then chomp line :: readLines [] cs
    else if line.length + 1 < SED_LINE_CAP then readLines (line ++ [c]) cs
    else []

/-- What the system calls of one run return. The counts of `reads` end at the
first read that returns nothing, at the end of the file or by an error; the
pairs are a rename and its retry. -/
structure Env where
  opensIn : Bool := true
  opensOut : Bool := true
  reads : List Nat
  wrote : Writes := fun _ data => some data.length
  /-- What a run that failed has put into the temporary file. -/
  torn : Bytes := []
  unlinkTmp : Bool := true
  renameBak : Bool × Bool := (true, true)
  unlinkBak : Bool := true
  renameOut : Bool × Bool := (true, true)
  unlinkPath : Bool := true

variable (env : Env) (opts : Opts)

/-- The bytes `reader_getc` hands out. -/
def Env.delivered (content : Bytes) : Bytes := content.take (env.reads.takeWhile (· != 0)).sum

def Env.lines (content : Bytes) : List Bytes := readLines [] (env.delivered content)

/-- Address states are reset for each file. -/
def Env.stream (cmds : List Command) (content : Bytes) : Option Bytes :=
  processSingleStream env.wrote opts (cmds.map fun c => { c with addr.active := false }) 0 (env.lines content) []

/-! ## Replacing the file -/

def Opts.backs (opts : Opts) (path : Path) : Bool :=
  !opts.bakSuffix.isEmpty && decide (path.length + opts.bakSuffix.length + 1 < SED_PATH_CAP)

def backup (fs : Files) (path : Path) : Files :=
  let bak := path ++ opts.bakSuffix
  if opts.backs path then
    let (ok, fs) := rename env.renameBak.1 fs path bak
    if ok then fs else (rename env.renameBak.2 (unlink env.unlinkBak fs bak) path bak).2
  else fs

def processFileInplace (cmds : List Command) (fs : Files) (path : Path) : Nat × Files :=
  if path = [45] then (2, fs)
  else
    match fs path with
    | none => (2, fs)
    | some content =>
      if !env.opensIn || path.length + 5 ≥ SED_PATH_CAP || !env.opensOut then (2, fs)
      else
        let tmp := path ++ tmpSuffix
        match env.stream opts cmds content with
        | none => (1, unlink env.unlinkTmp (Function.update fs tmp (some env.torn)) tmp)
        | some out =>
          replaceTarget env.renameOut env.unlinkPath (backup env opts (Function.update fs tmp (some out)) path) tmp path

/-! ## The script's output -/

/-- Every write is whole. -/
def whole : Writes := fun _ data => some data.length

/-- The output of the script on some lines, where nothing fails but a substitution. -/
def output (opts : Opts) (cmds : List Command) (lines : List Bytes) : Option Bytes :=
  processSingleStream whole opts (cmds.map fun c => { c with addr.active := false }) 0 lines []

/-- No data is destroyed: success leaves the whole output, and failure the
content, under its name or the backup's. -/
def Right (opts : Opts) (cmds : List Command) (path : Path) (content : Bytes) (r : Nat × Files) : Prop :=
  (r.1 = 0 → (r.2 path).isSome ∧ r.2 path = output opts cmds (textLines content)) ∧
    (r.1 ≠ 0 → r.2 path = some content ∨ opts.bakSuffix ≠ [] ∧ r.2 (path ++ opts.bakSuffix) = some content)

/-! ## A run that completes -/

section Whole

variable {w : Writes} {opts : Opts} {isLast : Bool} {lineNo : Nat}

theorem bind_whole {α β : Type} {x y : Option α} {f g : α → Option β} {b : β} (h : (x >>= f) = some b)
    (hx : ∀ a, x = some a → y = some a) (hf : ∀ a b, f a = some b → g a = some b) : (y >>= g) = some b := by
  obtain ⟨a, ha, hb⟩ := Option.bind_eq_some_iff.1 h
  exact Option.bind_eq_some_iff.2 ⟨a, hx a ha, hf a b hb⟩

theorem ite_whole {α : Type} {p : Prop} [Decidable p] {x y x' y' : Option α} {a : α}
    (h : (if p then x else y) = some a) (hx : x = some a → x' = some a) (hy : y = some a → y' = some a) :
    (if p then x' else y') = some a := by
  split at h
  · rw [if_pos ‹_›, hx h]
  · rw [if_neg ‹_›, hy h]

theorem sysWrite_whole {out data r : Bytes} (h : sysWrite w out data = some r) :
    sysWrite whole out data = some r := by
  unfold sysWrite at h
  split at h
  · rw [sysWrite, whole, if_pos rfl, h]
  · cases h

theorem writeOutputLine_whole {out line r : Bytes} (h : writeOutputLine w out line = some r) :
    writeOutputLine whole out line = some r :=
  ite_whole h sysWrite_whole fun h => bind_whole h (fun _ => sysWrite_whole) fun _ _ => sysWrite_whole

theorem runCommands_whole : ∀ {cmds : List Command} {line out : Bytes}
    {r : List Command × Option Bytes × Bytes}, runCommands w lineNo isLast cmds line out = some r →
      runCommands whole lineNo isLast cmds line out = some r
  | [], _, _, _, h => h
  | cmd :: cmds, line, out, r, h => by
    have next {line out r} {f : List Command × Option Bytes × Bytes → Option (List Command × Option Bytes × Bytes)}
        (h : (runCommands w lineNo isLast cmds line out >>= f) = some r) :
        (runCommands whole lineNo isLast cmds line out >>= f) = some r :=
      bind_whole h (fun _ => runCommands_whole) fun _ _ h => h
    refine ite_whole h next fun h => ?_
    cases htype : cmd.type with
    | print =>
      rw [htype] at h
      exact bind_whole h (fun _ => writeOutputLine_whole) fun _ _ => next
    | delete =>
      rw [htype] at h
      exact h
    | subst doSubstitution flagP =>
      rw [htype] at h
      refine bind_whole h (fun _ h => h) fun new r h => ?_
      cases new with
      | none => exact next h
      | some line => exact ite_whole h (fun h => bind_whole h (fun _ => writeOutputLine_whole) fun _ _ => next) next

theorem processLine_whole {cmds : List Command} {line : Bytes} {out : Bytes}
    {r : List Command × Bytes} (h : processLine w opts cmds line lineNo isLast out = some r) :
    processLine whole opts cmds line lineNo isLast out = some r := by
  refine bind_whole h (fun _ => runCommands_whole) fun ⟨_, line, _⟩ r h => ?_
  cases line with
  | none => exact h
  | some line => exact ite_whole h id fun h => bind_whole h (fun _ => writeOutputLine_whole) fun _ _ h => h

theorem processSingleStream_whole : ∀ {lines : List Bytes} {cmds : List Command} {lineNo : Nat} {out r : Bytes},
    processSingleStream w opts cmds lineNo lines out = some r →
      processSingleStream whole opts cmds lineNo lines out = some r
  | [], _, _, _, _, h => h
  | _ :: _, _, _, _, _, h => bind_whole h (fun _ => processLine_whole) fun _ _ => processSingleStream_whole

end Whole

/-! ## What the replacement leaves -/

section Replace

variable (env : Env) (opts : Opts) (cmds : List Command) {fs : Files} {path : Path} {content out : Bytes}

/-- The content is under its name still, or it was moved under the backup's. -/
theorem backup_keeps (hc : fs path = some content) :
    if opts.backs path && (env.renameBak.1 || env.renameBak.2) then
      opts.bakSuffix ≠ [] ∧ backup env opts fs path (path ++ opts.bakSuffix) = some content
    else backup env opts fs path path = some content := by
  have hs : opts.backs path = true → opts.bakSuffix ≠ [] := fun hb => by
    simp only [Opts.backs, Bool.and_eq_true, Bool.not_eq_true', List.isEmpty_eq_false_iff] at hb
    exact hb.1
  unfold backup rename unlink
  cases hb : opts.backs path <;> cases env.renameBak.1 <;> cases env.renameBak.2 <;> cases env.unlinkBak <;>
    simp [hc, hs, hb]

theorem backup_other {p : Path} (hp : p ≠ path) (hb : p ≠ path ++ opts.bakSuffix) :
    backup env opts fs path p = fs p := by
  unfold backup
  dsimp only
  split_ifs
  · exact rename_other _ hp hb
  · rw [rename_other _ hp hb, unlink_other _ hb, rename_other _ hp hb]
  · rfl

/-- Whether the content of a completed run is still there, or its whole output: `fs` are the files after the backup. -/
theorem right_replaced {files : Files} (hc : files path = some content) (hfs : backup env opts files path = fs) :
    Right opts cmds path content (replaceTarget env.renameOut env.unlinkPath fs (path ++ tmpSuffix) path) ↔
      if (fs (path ++ tmpSuffix)).isSome && (env.renameOut.1 || env.renameOut.2) then
        fs (path ++ tmpSuffix) = output opts cmds (textLines content)
      else env.unlinkPath = false ∨ opts.bakSuffix ≠ [] ∧ fs (path ++ opts.bakSuffix) = some content := by
  have hkeeps : fs path = some content ∨ opts.bakSuffix ≠ [] ∧ fs (path ++ opts.bakSuffix) = some content := by
    have h := backup_keeps env opts hc
    rw [hfs] at h
    split at h
    · exact .inr h
    · exact .inl h
  have hr := replaceTarget_apply env.renameOut env.unlinkPath fs (tmp_ne path)
  split
  · rename_i hb
    rw [if_pos hb] at hr
    rw [Bool.and_eq_true] at hb
    exact ⟨fun h => hr.2 ▸ (h.1 hr.1).2, fun h => ⟨fun _ => hr.2 ▸ ⟨hb.1, h⟩, fun h0 => absurd hr.1 h0⟩⟩
  rename_i hb
  rw [if_neg hb] at hr
  rw [Right, hr]
  cases env.unlinkPath
  · simpa [unlink] using hkeeps
  · by_cases hs : opts.bakSuffix = [] <;> simp [unlink, hs]

end Replace

/-! ## The lines that are delivered -/

/-- The lines before the first that does not fit. -/
def fitting (lines : List Bytes) : List Bytes := (lines.takeWhile fun l => decide (l.length < SED_LINE_CAP)).map chomp

theorem readLines_eq (text : Bytes) : ∀ {line p : Bytes} {ps : List Bytes}, line.length < SED_LINE_CAP →
    text.splitOn 10 = p :: ps → readLines line text = fitting (trimLast ((line ++ p) :: ps)) := by
  induction text with
  | nil =>
    intro line p ps hline hp
    obtain ⟨rfl, rfl⟩ : p = [] ∧ ps = [] := by simpa [eq_comm] using hp
    cases line with
    | nil => simp [readLines, fitting, trimLast]
    | cons =>
      rw [List.length_cons] at hline
      simp [readLines, fitting, trimLast, hline]
  | cons c text ih =>
    intro line p ps hline hp
    obtain ⟨q, qs, hq, hc⟩ := splitOn_cons c text
    rw [hc] at hp
    rw [readLines]
    by_cases hnl : c = 10
    · obtain ⟨rfl, rfl⟩ := List.cons.inj ((if_pos hnl).symm.trans hp)
      rw [if_pos (by simpa using hnl), ih (by decide) hq, trimLast_cons]
      simp [fitting, hline]
    obtain ⟨rfl, rfl⟩ := List.cons.inj ((if_neg hnl).symm.trans hp)
    rw [if_neg (by simpa using hnl)]
    split
    · rw [ih (by simpa using ‹_›) hq, List.append_assoc, List.singleton_append]
    · obtain ⟨rest, hrest⟩ := trimLast_head (p := line ++ c :: q) (by simp) qs
      have hlong : ¬(line ++ c :: q).length < SED_LINE_CAP := by simp; omega
      rw [hrest, fitting, List.takeWhile_cons, if_neg (by simpa using hlong)]
      rfl

theorem Env.lines_eq (content : Bytes) : env.lines content = fitting (rawLines (env.delivered content)) := by
  obtain ⟨p, ps, hp, -⟩ := splitOn_cons 0 (env.delivered content)
  rw [Env.lines, readLines_eq _ (by decide) hp, rawLines, hp, List.nil_append]

/-! ## When nothing is lost -/

/-- The run opens its files. -/
def Env.Starts (path : Path) : Prop :=
  path ≠ [45] ∧ env.opensIn = true ∧ path.length + 5 < SED_PATH_CAP ∧ env.opensOut = true

/-- No read ends the input before the last line, and no line is too long. -/
def Env.Delivers (content : Bytes) : Prop := fitting (rawLines (env.delivered content)) = textLines content

/-- What must hold of the results of the calls, the suffix and the content: where the temporary file can take the
path the lines are delivered, and where it cannot the path was not unlinked or there is a backup. A backup with the
name of the temporary file overwrites it, and one that fails may unlink it. -/
def Env.Clear (path : Path) (content : Bytes) : Prop :=
  env.Starts path →
    if opts.bakSuffix ≠ tmpSuffix then
      if env.renameOut.1 || env.renameOut.2 then env.Delivers content
      else env.unlinkPath = false ∨ (opts.backs path && (env.renameBak.1 || env.renameBak.2)) = true
    else if env.renameBak.1 || env.renameBak.2 then (env.renameOut.1 || env.renameOut.2) = true → content = []
    else if env.unlinkBak then env.unlinkPath = false
    else if env.renameOut.1 || env.renameOut.2 then env.Delivers content
    else env.unlinkPath = false ∨ content = []

section Scripts

variable {opts : Opts}

theorem writeOutputLine_ok (out line : Bytes) : writeOutputLine whole out line = some (out ++ (line ++ [10])) := by
  cases line <;> simp [writeOutputLine, sysWrite, whole]

/-- A script that puts out every line. -/
def plain (opts : Opts) : List Command := if opts.quiet then [{ type := .print }] else []

theorem processSingleStream_plain : ∀ (lines : List Bytes) (n : Nat) (out : Bytes),
    processSingleStream whole opts (plain opts) n lines out = some (out ++ lines.flatMap (· ++ [10]))
  | [], _, _ => by simp [processSingleStream]
  | line :: lines, n, out => by
    have ih := processSingleStream_plain lines (n + 1)
    cases hq : opts.quiet <;> simp only [plain, hq, if_true, Bool.false_eq_true, if_false] at ih ⊢ <;>
      simp [processSingleStream, processLine, runCommands, evalAddress, writeOutputLine_ok, hq, ih]

theorem output_plain (lines : List Bytes) : output opts (plain opts) lines = some (lines.flatMap (· ++ [10])) := by
  have hreset : ((plain opts).map fun c => { c with addr.active := false }) = plain opts := by
    unfold plain
    split <;> rfl
  rw [output, hreset, processSingleStream_plain, List.nil_append]

theorem output_delete (lines : List Bytes) : output opts [{ type := .delete }] lines = some [] := by
  have h : ∀ (lines : List Bytes) (n : Nat),
      processSingleStream whole opts [{ type := .delete }] n lines [] = some [] := by
    intro lines
    induction lines with
    | nil => exact fun _ => rfl
    | cons line lines ih => exact fun n => ih (n + 1)
  exact h lines 0

end Scripts

section Main

variable {env opts} {path : Path} {content out : Bytes} {cmds : List Command}

variable (others : Files)

/-- The files of a run that has written its output. -/
def written (path : Path) (content out : Bytes) : Files :=
  update (update others path (some content)) (path ++ tmpSuffix) (some out)

theorem written_path : written others path content out path = some content := by
  simp [written, (tmp_ne path).symm]

theorem backup_tmp (hlen : path.length + 5 < SED_PATH_CAP) :
    backup env opts (written others path content out) path (path ++ tmpSuffix) =
      if opts.bakSuffix ≠ tmpSuffix then some out
      else if env.renameBak.1 || env.renameBak.2 then some content
      else if env.unlinkBak then none else some out := by
  unfold written
  by_cases hs : opts.bakSuffix = tmpSuffix
  · have hb : opts.backs path = true := by simp [Opts.backs, hs, tmpSuffix, hlen]
    unfold backup rename unlink
    rw [if_pos hb, hs]
    cases env.renameBak.1 <;> cases env.renameBak.2 <;> cases env.unlinkBak <;> simp [(tmp_ne path).symm]
  · rw [backup_other env opts (tmp_ne path) (by simpa using Ne.symm hs), update_self, if_pos hs]

theorem backup_bak (hs : opts.bakSuffix ≠ tmpSuffix) (h0 : opts.bakSuffix ≠ []) :
    backup env opts (written (fun _ => none) path content out) path (path ++ opts.bakSuffix) =
      if opts.backs path && (env.renameBak.1 || env.renameBak.2) then some content else none := by
  unfold backup rename unlink written
  cases opts.backs path <;> cases env.renameBak.1 <;> cases env.renameBak.2 <;> cases env.unlinkBak <;>
    simp [(tmp_ne path).symm, hs, h0]

theorem processFileInplace_started (hs : env.Starts path)
    (hout : env.stream opts cmds content = some out) :
    processFileInplace env opts cmds (update others path (some content)) path =
      replaceTarget env.renameOut env.unlinkPath (backup env opts (written others path content out) path)
        (path ++ tmpSuffix) path := by
  obtain ⟨h1, h2, h3, h4⟩ := hs
  simp [processFileInplace, written, h1, h2, Nat.not_le.2 h3, h4, hout]

theorem processFileInplace_stopped (h : env.Starts path → env.stream opts cmds content = none) :
    Right opts cmds path content (processFileInplace env opts cmds (update others path (some content)) path) := by
  have hkeep {n : Nat} (fs : Files) (hn : n ≠ 0) (hfs : fs path = some content) :
      Right opts cmds path content (n, fs) := ⟨fun h => absurd h hn, fun _ => .inl hfs⟩
  unfold processFileInplace
  split
  · exact hkeep _ (by decide) (by simp)
  rw [update_self]
  dsimp only
  split
  · exact hkeep _ (by decide) (by simp)
  rename_i hp he
  have hs : env.Starts path := by simpa [Env.Starts, hp, and_assoc] using he
  rw [h hs]
  refine hkeep _ (by decide) ?_
  rw [unlink_other _ (tmp_ne path).symm]
  exact written_path others

/-- A run that ends is right by what the backup leaves, for every script with an output. -/
theorem right_iff_replaced : (∀ others wrote cmds, Right opts cmds path content
      (processFileInplace { env with wrote } opts cmds (update others path (some content)) path)) ↔
    (env.Starts path → ∀ others cmds out, output opts cmds (env.lines content) = some out →
      Right opts cmds path content (replaceTarget env.renameOut env.unlinkPath
        (backup env opts (written others path content out) path) (path ++ tmpSuffix) path)) := by
  refine ⟨fun h hs others cmds out hout => ?_, fun h others wrote cmds => ?_⟩
  · exact @processFileInplace_started { env with wrote := whole } _ _ _ _ _ others hs hout ▸ h others whole cmds
  · by_cases hrun : env.Starts path → Env.stream { env with wrote } opts cmds content = none
    · exact @processFileInplace_stopped { env with wrote } _ _ _ _ others hrun
    obtain ⟨hs, hsome⟩ := Classical.not_imp.1 hrun
    obtain ⟨out, hout⟩ := Option.ne_none_iff_exists'.1 hsome
    rw [@processFileInplace_started { env with wrote } _ _ _ _ _ others hs hout]
    exact h hs others cmds out (processSingleStream_whole hout)

/-- The script that puts out every line tells whether they are the text's. -/
theorem delivers_iff : (∀ (_ : Files) cmds out, output opts cmds (env.lines content) = some out →
      some out = output opts cmds (textLines content)) ↔ env.Delivers content := by
  constructor
  · intro h
    have hp := h (fun _ => none) _ _ (output_plain _)
    rw [output_plain, env.lines_eq, Option.some.injEq] at hp
    refine flatMap_newline_inj (map_chomp_clear fun l hl => ?_) (map_chomp_clear (rawLines_clear _)) hp
    exact rawLines_clear _ l ((List.takeWhile_prefix _).subset hl)
  · intro h others cmds out hout
    rw [← hout, env.lines_eq, h]

/-- **`sed -i` destroys nothing, whatever the script and the writes do, exactly if** the calls, the suffix and the
content are clear. -/
theorem processFileInplace_right_iff (env : Env) (opts : Opts) (path : Path) (content : Bytes) :
    (∀ others wrote cmds, Right opts cmds path content
      (processFileInplace { env with wrote } opts cmds (update others path (some content)) path)) ↔
    env.Clear opts path content := by
  rw [right_iff_replaced]
  refine imp_congr_right fun hs => ?_
  -- What the deleting script must leave, which has an output whatever the lines are.
  have hdel {P : Files → List Command → Bytes → Prop} (h : ∀ others cmds out,
      output opts cmds (env.lines content) = some out → P others cmds out) : P (fun _ => none) _ [] :=
    h _ _ _ (output_delete _)
  simp only [right_replaced _ _ _ (written_path _) rfl, backup_tmp _ hs.2.2.1]
  by_cases hsuf : opts.bakSuffix = tmpSuffix
  · have hbak : tmpSuffix ≠ [] := by decide
    simp only [hsuf, backup_tmp _ hs.2.2.1, ne_eq, not_true_eq_false, if_false, hbak, not_false_eq_true, true_and]
    split
    · simp only [Option.isSome_some, Bool.true_and, or_true]
      split
      · rename_i ht
        refine ⟨fun h _ => ?_, fun h => ?_⟩
        · simpa [output_delete] using hdel h
        · rintro - cmds - -
          rw [h ht]
          rfl
      · rename_i ht
        simp [ht]
    split
    · exact ⟨fun h => by simpa using hdel h, fun h _ _ _ _ => by simp [h]⟩
    simp only [Option.isSome_some, Bool.true_and]
    split
    · exact delivers_iff
    · refine ⟨fun h => (hdel h).imp_right fun h => (Option.some.inj h).symm, fun h _ cmds out hout => h.imp_right ?_⟩
      rintro rfl
      exact hout.symm.trans (by simp [Env.lines, Env.delivered, readLines, output, processSingleStream])
  · simp only [ne_eq, hsuf, not_false_eq_true, if_true, Option.isSome_some, Bool.true_and]
    split
    · exact delivers_iff
    · refine ⟨fun h => (hdel h).imp_right fun hb => ?_, fun h others cmds out _ => h.imp_right fun hb => ?_⟩
      · by_contra hno
        rw [backup_bak hsuf hb.1, if_neg hno] at hb
        cases hb.2
      · have hkeeps := backup_keeps env opts (@written_path path content out others)
        rwa [if_pos hb] at hkeeps

end Main

/-- A read that fails after the first line: the run succeeds, and the second line is gone. -/
theorem read_error_truncates : ¬ Right {} [] [102] [97, 10, 98, 10]
    (processFileInplace { reads := [2, 0] } {} [] (Function.update (fun _ => none) [102] (some [97, 10, 98, 10]))
      [102]) := by
  unfold Right
  decide

end Fortress.Sed
