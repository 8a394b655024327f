/-
When etcfs files are exact. Each file is compared with an abstract byte file
that takes the same successful calls. A buffer holds the file in its first
bytes, but three things are not kept: the bytes behind the end after the file
shrank (a later write past the end shows them), the tail of an archived file
that the first buffer is too small for, and sizes that wrap when rounded up.
A run is exact just when it meets none of the three.
-/
import Fortress.Etcfs.Node

namespace Fortress.Etcfs

open Codec ByteFile List

/-! ## The abstract files -/

/-- The file after a call that was answered `r`. -/
def Op.apply (f : Bytes) (r : Reply) : Op → Bytes
  | .write append off bytes | .writeActor append off bytes _ =>
    if r.isOk ∧ bytes ≠ [] then overwrite f (if append then f.length else off) bytes else f
  | .truncate size => if r.isOk then resize f size else f
  | .openActor _ trunc _ => if r.isOk ∧ trunc then [] else f
  | .read _ _ => f

/-- What a call that succeeds answers. -/
def Op.answer (f : Bytes) : Op → Bytes
  | .read off len => slice f off len
  | _ => []

/-- The capacity of the node's buffer, if it has one. -/
def Node.held (n : Node) : Nat := if n.buffer.isSome then n.capacity else 0

/-- The files read as `fs`, and the quota is what the live buffers hold, within its bound. -/
structure Agrees (s : EtcFs) (fs : List Bytes) : Prop where
  reads : List.Forall₂ Node.Reads s.files fs
  quota : s.quota.allocated = (s.files.map Node.held).sum
  bound : s.quota.allocated ≤ ETCFS_MAX_BYTES

/-- Every call stays inside its buffers, answers what the abstract file has and leaves all files agreeing. -/
def Exact (s : EtcFs) (fs : List Bytes) : List (Nat × Op) → Prop
  | [] => True
  | (i, op) :: ops =>
    ∃ r s', s.step i op = some (r, s') ∧ (∀ bytes, r = .ok bytes → bytes = op.answer (fs.getD i [])) ∧
      Agrees s' (fs.set i (op.apply (fs.getD i []) r)) ∧ Exact s' (fs.set i (op.apply (fs.getD i []) r)) ops

/-! ## The condition -/

def Op.Clear (q : Quota) (n : Node) : Op → Prop
  | .write append off bytes =>
    n.isProtected = false → bytes ≠ [] → WriteClear q n (if append then n.size else off) bytes.length
  | .writeActor append off bytes _ =>
    n.isProtected = false → n.removed = false → bytes ≠ [] →
      WriteClear q n (if append then n.size else off) bytes.length
  | .truncate size => size ≠ 0 → Granted q n size → size ≤ 2 ^ 64 - 256
  | .openActor _ _ _ | .read _ _ => True

/-- Every call of the run meets the condition in the state it is made in. -/
def ClearRun (s : EtcFs) : List (Nat × Op) → Prop
  | [] => True
  | (i, op) :: ops =>
    (∀ n, s.files[i]? = some n → op.Clear s.quota n) ∧ ∀ r s', s.step i op = some (r, s') → ClearRun s' ops

/-! ## One call -/

variable {n : Node}

theorem etcOpenActor_done {q : Quota} {f : Bytes} (h : Rep n f) (hq : n.capacity ≤ q.allocated)
    (hbound : q.allocated ≤ ETCFS_MAX_BYTES) (access : Option Errno) (trunc : Bool) (contentMode : Nat → Nat) :
    Done q n (if (etcOpenActor q n access trunc contentMode).1.isOk ∧ trunc then [] else f)
      (etcOpenActor q n access trunc contentMode).2.1 (etcOpenActor q n access trunc contentMode).2.2 := by
  have hsame : Done q n f q n := ⟨h, rfl, hbound⟩
  unfold etcOpenActor
  split
  · exact hsame
  split
  · rename_i ht
    split
    · exact hsame
    split
    · exact hsame
    have hempty := etcEmpty_done h hq hbound
    rw [if_pos ⟨rfl, ht⟩]
    exact ⟨{ hempty.rep with }, hempty.quota, hempty.bound⟩
  · rename_i ht
    rw [if_neg fun hc => ht hc.2]
    exact hsame

variable {α β : Type}

theorem isOk_map (r : Except Errno α) (g : α → β) : (r.map g).isOk = r.isOk := by
  cases r <;> rfl

theorem eq_nil_of_map {r : Except Errno α} {bytes : Bytes} (h : r.map (fun _ => []) = .ok bytes) : bytes = [] := by
  cases r with
  | error e => cases h
  | ok a =>
    cases h
    rfl

section Run

variable {q : Quota} {n : Node} {f : Bytes}

theorem done_of_put {append : Bool} {off mode : Nat} {bytes : Bytes} (h : Rep n f) (hq : n.capacity ≤ q.allocated)
    (hbound : q.allocated ≤ ETCFS_MAX_BYTES) (hbytes : bytes ≠ [])
    (hclear : WriteClear q n (if append then n.size else off) bytes.length) :
    ∃ r q' n', etcPut q n (if append then n.size else off) bytes mode = some (r, q', n') ∧
      Done q n (if r.isOk ∧ bytes ≠ [] then overwrite f (if append then f.length else off) bytes else f) q' n' := by
  obtain ⟨r, q', n', hput, hdone⟩ := etcPut_clear mode h hq hbound hbytes hclear
  refine ⟨r, q', n', hput, ?_⟩
  simpa [hbytes, h.size] using hdone

theorem Op.run_clear {op : Op} (h : Rep n f) (hq : n.capacity ≤ q.allocated) (hbound : q.allocated ≤ ETCFS_MAX_BYTES)
    (hclear : op.Clear q n) :
    ∃ r q' n', op.run q n = some (r, q', n') ∧ (∀ bytes, r = .ok bytes → bytes = op.answer f) ∧
      Done q n (op.apply f r) q' n' := by
  have hsame : Done q n f q n := ⟨h, rfl, hbound⟩
  cases op with
  | read off len =>
    refine ⟨.ok (slice f off len), q, n, by simp [run, h.reads off len], ?_, hsame⟩
    intro bytes hb
    cases hb
    rfl
  | write append off bytes =>
    simp only [run, etcWriteFile]
    split
    · exact ⟨.error .rofs, q, n, rfl, nofun, hsame⟩
    rename_i hp
    split
    · rename_i hb
      exact ⟨.ok [], q, n, rfl, fun _ he => (Except.ok.inj he).symm, by simpa [Op.apply, hb] using hsame⟩
    rename_i hb
    obtain ⟨r, q', n', hput, hdone⟩ := done_of_put h hq hbound hb (hclear (by simpa using hp) hb)
    refine ⟨r.map fun _ => [], q', n', by rw [hput]; rfl, fun _ he => eq_nil_of_map he, ?_⟩
    simpa only [Op.apply, isOk_map] using hdone
  | writeActor append off bytes contentMode =>
    simp only [run, etcWriteActor]
    split
    · exact ⟨.error .rofs, q, n, rfl, nofun, hsame⟩
    rename_i hp
    split
    · rename_i hb
      exact ⟨.ok [], q, n, rfl, fun _ he => (Except.ok.inj he).symm, by simpa [Op.apply, hb] using hsame⟩
    rename_i hb
    split
    · exact ⟨.error .noent, q, n, rfl, nofun, hsame⟩
    rename_i hr
    obtain ⟨r, q', n', hput, hdone⟩ := done_of_put h hq hbound hb (hclear (by simpa using hp) (by simpa using hr) hb)
    refine ⟨r.map fun _ => [], q', n', by rw [hput]; rfl, fun _ he => eq_nil_of_map he, ?_⟩
    simpa only [Op.apply, isOk_map] using hdone
  | truncate size =>
    obtain ⟨r, q', n', htr, hdone⟩ := etcTruncateFile_clear h hq hbound hclear
    refine ⟨r.map fun _ => [], q', n', by simp only [run]; rw [htr]; rfl, fun _ he => eq_nil_of_map he, ?_⟩
    simpa only [Op.apply, isOk_map] using hdone
  | openActor access trunc contentMode =>
    refine ⟨_, _, _, rfl, fun _ he => eq_nil_of_map he, ?_⟩
    simpa only [Op.apply, isOk_map] using etcOpenActor_done h hq hbound access trunc contentMode

theorem Op.run_unclear {op : Op} (h : Rep n f) (hcap : n.capacity ≤ ETCFS_MAX_BYTES) (hclear : ¬op.Clear q n)
    {r : Reply} {q' : Quota} {n' : Node} (hrun : op.run q n = some (r, q', n')) : ¬n'.Reads (op.apply f r) := by
  cases op with
  | read off len | openActor access trunc contentMode => exact absurd trivial hclear
  | truncate size =>
    simp only [run, etcTruncateFile_unclear h hcap hclear, Option.map_none] at hrun
    cases hrun
  | write append off bytes =>
    simp only [Op.Clear, not_forall] at hclear
    obtain ⟨hp, hb, hw⟩ := hclear
    simp only [run, etcWriteFile, hp, Bool.false_eq_true, if_false, hb, Option.map_eq_some_iff] at hrun
    obtain ⟨⟨r0, q0, n0⟩, hput, heq⟩ := hrun
    cases heq
    obtain ⟨hok, hbad⟩ := etcPut_unclear _ h hcap hb hw hput
    simpa [Op.apply, isOk_map, hok, hb, ← h.size] using hbad
  | writeActor append off bytes contentMode =>
    simp only [Op.Clear, not_forall] at hclear
    obtain ⟨hp, hr, hb, hw⟩ := hclear
    simp only [run, etcWriteActor, hp, hr, Bool.false_eq_true, if_false, hb, Option.map_eq_some_iff] at hrun
    obtain ⟨⟨r0, q0, n0⟩, hput, heq⟩ := hrun
    cases heq
    obtain ⟨hok, hbad⟩ := etcPut_unclear _ h hcap hb hw hput
    simpa [Op.apply, isOk_map, hok, hb, ← h.size] using hbad

end Run

/-! ## Runs -/

variable {i : Nat} {as : List α} {R : α → β → Prop} {a : α} {bs : List β}

theorem sum_map_set (g : α → Nat) (h : as[i]? = some a) (a' : α) :
    ((as.set i a').map g).sum + g a = (as.map g).sum + g a' := by
  induction as generalizing i with
  | nil => simp at h
  | cons x as ih =>
    cases i with
    | zero =>
      obtain rfl : x = a := by simpa using h
      simp only [set_cons_zero, map_cons, sum_cons]
      omega
    | succ i =>
      have := ih (by simpa using h)
      simp only [set_cons_succ, map_cons, sum_cons]
      omega

theorem forall₂_set (h : List.Forall₂ R as bs)
    {b : β} (hab : R a b) : List.Forall₂ R (as.set i a) (bs.set i b) := by
  induction h generalizing i with
  | nil => exact .nil
  | cons hxy hrest ih =>
    cases i with
    | zero => exact .cons hab hrest
    | succ i => exact .cons hxy ih

theorem forall₂_getElem? (h : List.Forall₂ R as bs) (ha : as[i]? = some a) : ∃ b, bs[i]? = some b ∧ R a b := by
  induction h generalizing i with
  | nil => simp at ha
  | @cons x y as bs hxy _ ih =>
    cases i with
    | zero =>
      obtain rfl : x = a := by simpa using ha
      exact ⟨y, rfl, hxy⟩
    | succ i => exact ih (by simpa using ha)

/-- The invariant of an exact run. -/
structure Inv (s : EtcFs) (fs : List Bytes) : Prop where
  reps : List.Forall₂ Rep s.files fs
  quota : s.quota.allocated = (s.files.map Node.capacity).sum
  bound : s.quota.allocated ≤ ETCFS_MAX_BYTES

theorem Rep.held_eq {f : Bytes} (h : Rep n f) : n.held = n.capacity := by
  unfold Node.held
  cases hb : n.buffer with
  | some b => rfl
  | none => exact (h.unbuffered hb).1.symm

variable {fs : List Bytes} {s : EtcFs} {op : Op}

theorem Inv.agrees (h : Inv s fs) : Agrees s fs := by
  refine ⟨h.reps.imp fun _ _ hr => hr.reads, ?_, h.bound⟩
  have hheld : ∀ {ns : List Node} {gs : List Bytes}, List.Forall₂ Rep ns gs → ns.map Node.held = ns.map Node.capacity := by
    intro ns gs hreps
    induction hreps with
    | nil => rfl
    | cons hr _ ih => rw [map_cons, map_cons, hr.held_eq, ih]
  rw [h.quota, hheld h.reps]

theorem Inv.capacity_le (h : Inv s fs) (hn : s.files[i]? = some n) : n.capacity ≤ s.quota.allocated := by
  have := sum_map_set Node.capacity hn { n with entry := none }
  have hzero : Node.capacity { n with entry := none } = 0 := rfl
  rw [h.quota]
  omega

theorem Inv.step (h : Inv s fs) (hclear : ∀ n, s.files[i]? = some n → op.Clear s.quota n) :
    ∃ r s', s.step i op = some (r, s') ∧ (∀ bytes, r = .ok bytes → bytes = op.answer (fs.getD i [])) ∧
      Inv s' (fs.set i (op.apply (fs.getD i []) r)) := by
  unfold EtcFs.step
  cases hn : s.files[i]? with
  | none =>
    refine ⟨.error .noent, s, rfl, nofun, ?_⟩
    have hlen : fs.length ≤ i := by
      rw [← h.reps.length_eq]
      exact getElem?_eq_none_iff.1 hn
    rw [set_eq_of_length_le hlen]
    exact h
  | some n =>
    obtain ⟨f, hf, hrep⟩ := forall₂_getElem? h.reps hn
    have hget : fs.getD i [] = f := by rw [getD_eq_getElem?_getD, hf, Option.getD_some]
    obtain ⟨r, q', n', hrun, hans, hdone⟩ := Op.run_clear hrep (h.capacity_le hn) h.bound (hclear n hn)
    rw [hget]
    refine ⟨r, ⟨s.files.set i n', q'⟩, by simp [hrun], hans, forall₂_set h.reps hdone.rep, ?_, hdone.bound⟩
    have hsum := sum_map_set Node.capacity hn n'
    have hquota := hdone.quota
    have hall := h.quota
    show q'.allocated = ((s.files.set i n').map Node.capacity).sum
    omega

theorem Inv.step_unclear (h : Inv s fs) (hclear : ¬∀ n, s.files[i]? = some n → op.Clear s.quota n)
    {r : Reply} {s' : EtcFs}
    (hstep : s.step i op = some (r, s')) : ¬Agrees s' (fs.set i (op.apply (fs.getD i []) r)) := by
  simp only [not_forall] at hclear
  obtain ⟨n, hn, hbad⟩ := hclear
  obtain ⟨f, hf, hrep⟩ := forall₂_getElem? h.reps hn
  have hget : fs.getD i [] = f := by rw [getD_eq_getElem?_getD, hf, Option.getD_some]
  simp only [EtcFs.step, hn, Option.map_eq_some_iff] at hstep
  obtain ⟨⟨r0, q', n'⟩, hrun, heq⟩ := hstep
  cases heq
  intro hag
  obtain ⟨g, hg, hreads⟩ := forall₂_getElem? hag.reads
    (show (s.files.set i n')[i]? = some n' by simp [(List.getElem?_eq_some_iff.1 hn).1])
  have hi : i < fs.length := (List.getElem?_eq_some_iff.1 hf).1
  rw [getElem?_set_self hi, hget] at hg
  cases hg
  exact Op.run_unclear hrep (Nat.le_trans (h.capacity_le hn) h.bound) hbad hrun hreads

theorem exact_iff_of_inv (h : Inv s fs) (ops : List (Nat × Op)) : Exact s fs ops ↔ ClearRun s ops := by
  induction ops generalizing s fs with
  | nil => exact Iff.rfl
  | cons call ops ih =>
    obtain ⟨i, op⟩ := call
    by_cases hclear : ∀ n, s.files[i]? = some n → op.Clear s.quota n
    · obtain ⟨r, s', hstep, hans, hinv⟩ := h.step hclear
      constructor
      · rintro ⟨r', s'', hstep', -, -, hrest⟩
        cases hstep.symm.trans hstep'
        refine ⟨hclear, fun r'' s'' hs'' => ?_⟩
        cases hstep.symm.trans hs''
        exact (ih hinv).1 hrest
      · rintro ⟨-, hrest⟩
        exact ⟨r, s', hstep, hans, hinv.agrees, (ih hinv).2 (hrest r s' hstep)⟩
    constructor
    · rintro ⟨r', s'', hstep', -, hag, -⟩
      exact absurd hag (h.step_unclear hclear hstep')
    · rintro ⟨hc, -⟩
      exact absurd hc hclear

/-- A node no call has touched: empty, or with its bytes in the archive. -/
structure Fresh (n : Node) (f : Bytes) : Prop where
  buffer : n.buffer = none
  capacity : n.capacity = 0
  size : n.size = f.length
  data : n.data = .null ∧ f = [] ∨ n.data = .archive f ∧ f.length < 2 ^ 63

theorem Fresh.rep {f : Bytes} (h : Fresh n f) : Rep n f :=
  ⟨h.size, fun b hb => by simp [h.buffer] at hb, fun _ => ⟨h.capacity, h.data⟩⟩

/-- A file system no call has touched. -/
structure FreshFs (s : EtcFs) (fs : List Bytes) : Prop where
  files : List.Forall₂ Fresh s.files fs
  quota : s.quota.allocated = 0

theorem FreshFs.inv (h : FreshFs s fs) : Inv s fs := by
  refine ⟨h.files.imp fun _ _ hf => hf.rep, ?_, by rw [h.quota]; exact Nat.zero_le _⟩
  have hzero : ∀ {ns : List Node} {gs : List Bytes}, List.Forall₂ Fresh ns gs → (ns.map Node.capacity).sum = 0 := by
    intro ns gs hfresh
    induction hfresh with
    | nil => rfl
    | cons hf _ ih => rw [map_cons, sum_cons, hf.capacity, ih]
  rw [h.quota, hzero h.files]

/-- **A run of etcfs calls is exact just when each call meets the condition in its state.** -/
theorem exact_iff_clearRun {s : EtcFs} {fs : List Bytes} (h : FreshFs s fs) (ops : List (Nat × Op)) :
    Exact s fs ops ↔ ClearRun s ops :=
  exact_iff_of_inv h.inv ops

def motd (size : Nat) (data : Data) : Node where
  path := "/etc/motd".toList
  isFile := true
  mode := 0o100644
  size := size
  data := data
  entry := some {}

/-- One file, with heap enough. -/
def oneFile (size : Nat) (data : Data) : EtcFs := ⟨[motd size data], ⟨0, List.replicate 4 true⟩⟩

/-- An empty file and an archived one. -/
def twoFiles : EtcFs := ⟨[motd 0 .null, motd 3 (.archive [65, 66, 67])], ⟨0, List.replicate 4 true⟩⟩

theorem twoFiles_fresh : FreshFs twoFiles [[], [65, 66, 67]] :=
  ⟨.cons ⟨rfl, rfl, rfl, .inl ⟨rfl, rfl⟩⟩ (.cons ⟨rfl, rfl, rfl, .inr ⟨rfl, by decide⟩⟩ .nil), rfl⟩

theorem ClearRun.cons {i : Nat} {op : Op} {ops : List (Nat × Op)} {r : Reply} {s' : EtcFs} {n : Node}
    (hn : s.files[i]? = some n) (hclear : op.Clear s.quota n) (hstep : s.step i op = some (r, s'))
    (hrest : ClearRun s' ops) : ClearRun s ((i, op) :: ops) := by
  refine ⟨fun n' hn' => ?_, fun r'' s'' hs'' => ?_⟩
  · cases hn.symm.trans hn'
    exact hclear
  · cases hstep.symm.trans hs''
    exact hrest

set_option maxRecDepth 4000 in
/-- The second write does not fit into the buffer that the first got. -/
theorem exact_write_read : FreshFs twoFiles [[], [65, 66, 67]] ∧
    Exact twoFiles [[], [65, 66, 67]]
      [(0, .write false 0 [65]), (0, .write false 512 [66]), (1, .write false 1 [90]), (0, .read 511 2),
        (1, .read 0 3)] := by
  refine ⟨twoFiles_fresh, (exact_iff_clearRun twoFiles_fresh _).2 ?_⟩
  refine .cons rfl (fun _ _ _ => ⟨by decide, Nat.zero_le (newCap 1)⟩) rfl ?_
  refine .cons rfl (fun _ _ _ => ⟨by decide, fun h => absurd h (by decide +kernel)⟩) rfl ?_
  refine .cons rfl (fun _ _ _ => ⟨by decide, (by decide : 3 ≤ newCap 2)⟩) rfl ?_
  exact .cons rfl trivial rfl (.cons rfl trivial rfl trivial)

/-- The replies of a run, if it stays inside its buffers. -/
def EtcFs.replies (s : EtcFs) : List (Nat × Op) → Option (List Reply)
  | [] => some []
  | (i, op) :: ops =>
    match s.step i op with
    | none => none
    | some (r, s) => (s.replies ops).map (r :: ·)

theorem replies_truncate_wrap {size : Nat} (h : 2 ^ 64 - 256 < size)
    (hg : Granted ⟨0, List.replicate 4 true⟩ (motd 0 .null) size) :
    (oneFile 0 .null).replies [(0, .truncate size)] = none := by
  have hrep : Rep (motd 0 .null) [] := ⟨rfl, nofun, fun _ => ⟨rfl, .inl ⟨rfl, rfl⟩⟩⟩
  have hout := etcTruncateFile_unclear hrep (Nat.zero_le _) fun hclear => absurd (hclear (by omega) hg) (by omega)
  simp only [EtcFs.replies, EtcFs.step, oneFile, getElem?_cons_zero, Op.run, hout, Option.map_none]

/-- One byte written into an archived file of 600 leaves a buffer of 512 that a read overruns; bytes cut off come
back as a gap that should be zero; and a size that wraps zeroes memory outside the buffer. -/
theorem replies_not_exact :
    (oneFile 600 (.archive (List.replicate 600 65))).replies [(0, .write false 0 [66]), (0, .read 599 1)] = none ∧
    ((oneFile 0 .null).replies
      [(0, .write false 0 [65, 66, 67]), (0, .truncate 1), (0, .write false 3 [68]), (0, .read 0 4)]).map
        (fun rs => rs.map Except.toOption) = some [some [], some [], some [], some [65, 66, 67, 68]] ∧
    overwrite (resize (overwrite [] 0 [65, 66, 67]) 1) 3 [68] = [65, 0, 0, 68] ∧
    (oneFile 0 .null).replies [(0, .truncate (2 ^ 64 - 1))] = none := by
  refine ⟨Option.isNone_iff_eq_none.1 (by decide +kernel), by decide +kernel, by decide +kernel, ?_⟩
  exact replies_truncate_wrap (by decide) ⟨by decide, _, rfl, .inr (by decide)⟩

end Fortress.Etcfs
