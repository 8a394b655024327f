/-
The account update is atomic under power cuts. Until the record is in place
the canonical set is the old one (`Quiet`); from then on the record and the
staged files say what to publish (`Redo`), whatever the canonical files hold,
until the new set is in place and the record goes. Recovery from either ends
in a quiet set, and so do its own interruptions.
-/
import Fortress.Account.Redo

namespace Fortress.Account

open Crash Codec Function

/-! ## The record -/

@[simp] theorem length_magic : magic.length = 8 := rfl

attribute [simp] Env.length_hash

variable (E : Env) (files : Trio) (g : UInt64)

theorem length_recordBody : (recordBody E files g).length = 128 := by
  simp [recordBody]

theorem length_record : (record E files g).length = ACCOUNT_INTENT_SIZE := by
  simp [record, length_recordBody, ACCOUNT_INTENT_SIZE]

theorem record_eq :
    [magic, le g.toNat 8, le (files 0).length 4, le (files 1).length 4, le (files 2).length 4, [0, 0, 0, 0],
      E.hash (files 0), E.hash (files 1), E.hash (files 2), E.hash (recordBody E files g)].flatten = record E files g := by
  simp [record, recordBody]

theorem recordLength_record (i : Fin 3)
    (h : (files i).length ≤ ACCOUNT_FILE_MAX) : recordLength (record E files g) i = (files i).length := by
  have hfield : slice (record E files g) (16 + 4 * i) 4 = le (files i).length 4 := by
    rw [← record_eq]
    match i with
    | 0 => exact slice_flatten (i := 2) (by simp) (by simp) (by simp)
    | 1 => exact slice_flatten (i := 3) (by simp) (by simp) (by simp)
    | 2 => exact slice_flatten (i := 4) (by simp) (by simp) (by simp)
  rw [recordLength, hfield, fromLe_le]
  exact Nat.mod_eq_of_lt (by simp only [ACCOUNT_FILE_MAX] at h; omega)

theorem recordSum_record (i : Fin 3) : recordSum (record E files g) i = E.hash (files i) := by
  rw [recordSum, ← record_eq]
  match i with
  | 0 => exact slice_flatten (i := 6) (by simp) (by simp) (by simp)
  | 1 => exact slice_flatten (i := 7) (by simp) (by simp) (by simp)
  | 2 => exact slice_flatten (i := 8) (by simp) (by simp) (by simp)

variable {E : Env} {files : Trio}

theorem validate_length (h : validate E files = none) (i : Fin 3) :
    0 < (files i).length ∧ (files i).length ≤ ACCOUNT_FILE_MAX := by
  unfold validate at h
  split at h
  · cases h
  rename_i hn
  have := not_exists.1 hn i
  omega

variable {g : UInt64}

theorem parse_record (hv : validate E files = none) (hg : g ≠ 0) : parse E (record E files g) = true := by
  have hbody : slice (record E files g) 0 128 = recordBody E files g := by
    rw [record, slice_append_left (by rw [length_recordBody]), slice_self (length_recordBody E files g)]
  have hp := record_eq E files g
  have hsum : slice (record E files g) 128 32 = E.hash (recordBody E files g) :=
    hp ▸ slice_flatten (i := 9) (by simp) (by simp) (by simp)
  have hmagic : slice (record E files g) 0 8 = magic := hp ▸ slice_flatten (i := 0) (by simp) rfl rfl
  have hgen : slice (record E files g) 8 8 = le g.toNat 8 := hp ▸ slice_flatten (i := 1) (by simp) rfl (by simp)
  have hzero : slice (record E files g) 28 4 = [0, 0, 0, 0] := hp ▸ slice_flatten (i := 5) (by simp) (by simp) rfl
  have hany : (le g.toNat 8).any (· != 0) = true := by
    by_contra hnot
    have hz := fromLe_eq_zero (Bool.eq_false_iff.2 hnot)
    rw [fromLe_le, Nat.mod_eq_of_lt (by have := g.toNat_lt; omega)] at hz
    exact hg (UInt64.toNat_inj.1 hz)
  have hlen : ∀ i, 0 < recordLength (record E files g) i ∧ recordLength (record E files g) i ≤ ACCOUNT_FILE_MAX := by
    intro i
    obtain ⟨hpos, hmax⟩ := validate_length hv i
    rw [recordLength_record E files g i hmax]
    exact ⟨hpos, hmax⟩
  simp [parse, hbody, hsum, hmagic, hgen, hzero, hany, hlen]

/-! ## Rules for the adapter -/

section Rules

variable {α β : Type} {E : Env} {C : Files → Prop} {Q : Except Errno β → Dev Files FileOp → Prop}
  {d : Dev Files FileOp}

variable {b : Bytes} {r : Role} {k : Unit → Acc β} {n : Nat}

theorem safe_ioRead {k : Except Errno Bytes → Acc β}
    (hr : d.view FileOp.apply r = some b) (hn : b.length ≤ n) (h : Safe FileOp.apply C Q (k (.ok b)) d) :
    Safe FileOp.apply C Q (ioRead r n >>= k) d := by
  refine safe_read.2 ?_
  rw [hr]
  dsimp only
  rwa [if_neg (Nat.not_lt.2 hn)]

theorem safe_ioRead_absent {k : Except Errno Bytes → Acc β}
    (hr : d.view FileOp.apply r = none) (h : Safe FileOp.apply C Q (k (.error .enoent)) d) :
    Safe FileOp.apply C Q (ioRead r n >>= k) d := by
  refine safe_read.2 ?_
  rwa [hr]

theorem safe_ioWrite (hr : d.view FileOp.apply r = none)
    (h : Safe FileOp.apply C Q (k ()) (d.issue (.write r b))) : Safe FileOp.apply C Q (ioWrite r b >>= k) d := by
  change Safe FileOp.apply C Q (Prog.bind (if (d.view FileOp.apply r).isSome then _ else _) k) d
  rw [hr]
  exact safe_put h

theorem safe_ioRename {s : Role} (hr : d.view FileOp.apply r = some b)
    (hs : d.view FileOp.apply s = none) (h : Safe FileOp.apply C Q (k ()) (d.issue (.rename r s))) :
    Safe FileOp.apply C Q (ioRename r s >>= k) d := by
  change Safe FileOp.apply C Q (Prog.bind
    (if (d.view FileOp.apply s).isSome ∨ (d.view FileOp.apply r).isNone then _ else _) k) d
  rw [hr, hs, if_neg (by simp)]
  exact safe_put h

theorem safe_check (h : Safe FileOp.apply C Q (k ()) d) : Safe FileOp.apply C Q (check none >>= k) d :=
  h

theorem safe_readFile {k : Bytes → Acc β} (hr : d.view FileOp.apply r = some b)
    (hn : b.length ≤ ACCOUNT_FILE_MAX) (h : Safe FileOp.apply C Q (k b) d) :
    Safe FileOp.apply C Q (readFile r >>= k) d := by
  refine safe_bind (safe_ioRead hr hn ?_)
  exact safe_ret (fun t ht => h.1 t (Prog.crashes_of_cut ht)) h

theorem safe_readChecked {s : Bytes} {e : Errno} {k : Bytes → Acc β}
    (hr : d.view FileOp.apply r = some b) (hmax : b.length ≤ ACCOUNT_FILE_MAX) (hn : b.length = n)
    (hs : E.hash b = s) (h : Safe FileOp.apply C Q (k b) d) :
    Safe FileOp.apply C Q (readChecked E r n s e >>= k) d := by
  refine safe_bind (safe_ioRead hr hmax ?_)
  change Safe FileOp.apply C _ (if b.length ≠ n ∨ E.hash b ≠ s then .fail e else .ret b) d
  rw [if_neg (by simp [hn, hs])]
  exact safe_ret (fun t ht => h.1 t (Prog.crashes_of_cut ht)) h

theorem safe_removeAll {l : List Role}
    (h : Safe FileOp.apply C Q (k ()) { d with pending := d.pending ++ l.map FileOp.remove }) :
    Safe FileOp.apply C Q (removeAll l >>= k) d := by
  induction l generalizing d with
  | nil =>
    rw [List.map_nil, List.append_nil] at h
    exact h
  | cons r l ih =>
    refine safe_put (ih ?_)
    simpa [Dev.issue] using h

end Rules

attribute [simp] Dev.view Dev.issue FileOp.apply

theorem foldl_remove (rs : List Role) (fs : Files) (r : Role) :
    (rs.map FileOp.remove).foldl FileOp.apply fs r = if r ∈ rs then none else fs r := by
  induction rs generalizing fs with
  | nil => simp
  | cons x rs ih =>
    rw [List.map_cons, List.foldl_cons, ih]
    by_cases hx : r = x
    · simp [hx]
    · simp [hx]

/-- The operation leaves the roles of `K` alone. -/
def FileOp.spares (K : Role → Bool) : FileOp → Bool
  | .write r _ | .remove r => !K r
  | .rename a b => !K a && !K b

variable {fs : Files} {r : Role} {K : Role → Bool}

theorem FileOp.apply_spares {o : FileOp} (h : o.spares K = true) (hr : K r = true) : o.apply fs r = fs r := by
  have ne {x : Role} (hx : K x = false) : r ≠ x := by
    rintro rfl
    rw [hr] at hx
    cases hx
  cases o with
  | write x b | remove x => exact update_of_ne (ne (by simpa [spares] using h)) _ _
  | rename a b =>
    simp only [spares, Bool.and_eq_true, Bool.not_eq_true'] at h
    cases hf : fs a with
    | none => simp only [apply, hf]
    | some c =>
      simp only [apply, hf]
      rw [update_of_ne (ne h.2), update_of_ne (ne h.1)]

variable {t : Files} {d : Dev Files FileOp}

theorem cut_spares (h : Cut FileOp.apply d t)
    (ho : ∀ o ∈ d.pending, o.spares K = true) (hr : K r = true) : t r = d.durable r :=
  h.induct (P := fun s => s r = d.durable r) rfl fun _ o hm hs => (FileOp.apply_spares (ho o hm) hr).trans hs

/-! ## Quiet and redo states -/

/-- No record, and the canonical files are `X`. -/
def Quiet (X : Trio) (t : Files) : Prop := t .pending = none ∧ ∀ i, t (.canon i) = some (X i)

/-- A record of `N` and its staged files. -/
def Redo (E : Env) (N : Trio) (g : UInt64) (t : Files) : Prop :=
  t .pending = some (record E N g) ∧ ∀ i, t (.stage i) = some (N i)

def Role.inQuiet : Role → Bool
  | .canon _ | .pending => true
  | _ => false

def Role.inRedo : Role → Bool
  | .stage _ | .pending => true
  | _ => false

attribute [simp] FileOp.spares Role.inQuiet Role.inRedo

variable {X : Trio} {s : Files}

theorem Quiet.congr (h : Quiet X s) (hst : ∀ r, r.inQuiet = true → t r = s r) : Quiet X t :=
  ⟨(hst _ rfl).trans h.1, fun i => (hst _ rfl).trans (h.2 i)⟩

variable {N : Trio} {C : Files → Prop}

theorem Redo.congr (h : Redo E N g s) (hst : ∀ r, r.inRedo = true → t r = s r) : Redo E N g t :=
  ⟨(hst _ rfl).trans h.1, fun i => (hst _ rfl).trans (h.2 i)⟩

/-- A step that ends without an error and with nothing outstanding. -/
def Ends (P : Files → Prop) (r : Except Errno Unit) (d : Dev Files FileOp) : Prop :=
  r = .ok () ∧ ∃ t, d = { durable := t } ∧ P t

theorem safe_ends {P : Files → Prop} {Q : Except Errno Unit → Dev Files FileOp → Prop}
    {p : Acc Unit} {k : Unit → Acc Unit} (h : Safe FileOp.apply C (Ends P) p d)
    (hk : ∀ t, P t → Safe FileOp.apply C Q (k ()) { durable := t }) : Safe FileOp.apply C Q (p >>= k) d := by
  refine safe_bind (h.mono (fun _ ht => ht) ?_)
  rintro r d' ⟨rfl, t, rfl, ht⟩
  exact hk t ht

theorem inQuiet_cleaned (h : r.inQuiet = true) : r ∉ cleaned := by
  cases r <;> simp_all [Role.inQuiet, cleaned]

theorem cleanup_safe (h : Quiet X fs) :
    Safe FileOp.apply (Quiet X) (Ends fun t => Quiet X t ∧ ∀ r ∈ cleaned, t r = none) cleanup { durable := fs } := by
  refine safe_removeAll (safe_sync (fun t ht => ?_) (safe_ret (fun t ht => ?_) ?_))
  · refine h.congr fun r hr => cut_spares ht (fun o ho => ?_) hr
    obtain ⟨x, hx, rfl⟩ := List.mem_map.1 ho
    cases hq : x.inQuiet with
    | true => exact absurd hx (inQuiet_cleaned hq)
    | false => simp only [FileOp.spares, hq, Bool.not_false]
  all_goals
    have hclean : Quiet X ((cleaned.map FileOp.remove).foldl FileOp.apply fs) :=
      h.congr fun r hr => by rw [foldl_remove, if_neg (inQuiet_cleaned hr)]
  · rw [cut_of_nil.1 ht]
    exact hclean
  exact ⟨rfl, _, rfl, hclean, fun r hr => by
    change (cleaned.map FileOp.remove).foldl FileOp.apply fs r = none
    rw [foldl_remove, if_pos hr]⟩

theorem publishFile_safe (h : Redo E N g fs) (i : Fin 3) (b : Bytes) :
    Safe FileOp.apply (Redo E N g)
      (Ends fun t => t (.canon i) = some b ∧ ∀ r, r ≠ .canon i → r ≠ .temp i → t r = fs r)
      (publishFile i b) { durable := fs } := by
  refine safe_issue (safe_ioWrite (by simp) (safe_flush (fun t ht => ?_) ?_))
  · exact h.congr fun r hr => cut_spares ht (K := Role.inRedo) (by simp) hr
  -- The copy is durable; the canonical file goes and the copy takes its place.
  set fs1 := Dev.view FileOp.apply (((⟨fs, []⟩ : Dev Files FileOp).issue (.remove (.temp i))).issue (.write (.temp i) b))
    with hfs1
  have htemp : fs1 (.temp i) = some b := by simp [hfs1]
  have hrest : ∀ r, r ≠ .temp i → fs1 r = fs r := by
    intro r hr
    simp [hfs1, update_of_ne hr]
  have h1 : Redo E N g fs1 := h.congr fun r hr => hrest r (by rintro rfl; cases hr)
  clear_value fs1
  refine safe_issue (safe_ioRename (b := b) ?_ (by simp)
    (safe_sync (fun t ht => ?_) (safe_ret (fun t ht => ?_) ?_)))
  · simp [htemp]
  · exact h1.congr fun r hr => cut_spares ht (K := Role.inRedo) (by simp) hr
  all_goals
    have hview : Dev.view FileOp.apply (((⟨fs1, []⟩ : Dev Files FileOp).issue (.remove (.canon i))).issue
        (.rename (.temp i) (.canon i))) =
          update (update (update fs1 (.canon i) none) (.temp i) none) (.canon i) (some b) := by
      simp [htemp]
    have hother : ∀ r, r ≠ .canon i → r ≠ .temp i →
        Dev.view FileOp.apply (((⟨fs1, []⟩ : Dev Files FileOp).issue (.remove (.canon i))).issue
          (.rename (.temp i) (.canon i))) r = fs1 r := by
      intro r hc ht
      rw [hview, update_of_ne hc, update_of_ne ht, update_of_ne hc]
  · rw [cut_of_nil.1 ht]
    exact h1.congr fun r hr => hother r (by rintro rfl; cases hr) (by rintro rfl; cases hr)
  · refine ⟨rfl, _, rfl, ?_, fun r hc ht => (hother r hc ht).trans (hrest r ht)⟩
    rw [hview, update_self]

theorem Redo.published {i : Fin 3} (h : Redo E N g s) (hr : ∀ r, r ≠ .canon i → r ≠ .temp i → t r = s r) : Redo E N g t :=
  h.congr fun r hq => hr r (by rintro rfl; cases hq) (by rintro rfl; cases hq)

theorem trio_eq (X : Trio) : trio (X 0) (X 1) (X 2) = X := by
  funext i
  match i with
  | 0 => rfl
  | 1 => rfl
  | 2 => rfl

/-- From a record on, every interruption leaves the record or the new set. -/
theorem publish_safe (h : Redo E N g fs) (hv : validate E N = none) :
    Safe FileOp.apply (fun t => Redo E N g t ∨ Quiet N t) (Ends (Quiet N)) (publish E N (record E N g))
      { durable := fs } := by
  have hlen := validate_length hv
  have step {fs : Files} (h : Redo E N g fs) (i : Fin 3) :
      Safe FileOp.apply (fun t => Redo E N g t ∨ Quiet N t)
        (Ends fun t => t (.canon i) = some (N i) ∧ ∀ r, r ≠ .canon i → r ≠ .temp i → t r = fs r)
        (publishFile i (N i)) { durable := fs } :=
    (publishFile_safe h i (N i)).mono (fun _ => .inl) fun _ _ hq => hq
  refine safe_ends (step h 0) fun t0 ⟨hc0, hr0⟩ => ?_
  have h0 := h.published hr0
  refine safe_ends (step h0 1) fun t1 ⟨hc1, hr1⟩ => ?_
  have h1 := h0.published hr1
  refine safe_ends (step h1 2) fun t2 ⟨hc2, hr2⟩ => ?_
  have h2 := h1.published hr2
  have hcanon : ∀ i, t2 (.canon i) = some (N i) := by
    intro i
    match i with
    | 0 => rw [hr2 _ (by decide) (by decide), hr1 _ (by decide) (by decide), hc0]
    | 1 => rw [hr2 _ (by decide) (by decide), hc1]
    | 2 => exact hc2
  refine safe_readChecked (hcanon 0) (hlen 0).2 rfl (recordSum_record E N g 0).symm ?_
  refine safe_readChecked (hcanon 1) (hlen 1).2 rfl (recordSum_record E N g 1).symm ?_
  refine safe_readChecked (hcanon 2) (hlen 2).2 rfl (recordSum_record E N g 2).symm ?_
  rw [trio_eq, hv]
  have hquiet : Quiet N (FileOp.apply t2 (.remove .pending)) := by
    refine ⟨by simp, fun i => ?_⟩
    simp [hcanon]
  refine safe_check (safe_flush (fun t ht => ?_) (safe_issue (safe_flush (fun t ht => ?_) ?_)))
  · exact .inl (cut_of_nil.1 ht ▸ h2)
  · -- The record is still there, or it is gone and the new set is in place.
    rcases cut_of_singleton.1 ht with rfl | rfl
    · exact .inl h2
    · exact .inr hquiet
  · exact (cleanup_safe hquiet).mono (fun _ => .inr) fun _ _ ⟨hr, t, hd, hq, _⟩ => ⟨hr, t, hd, hq⟩

/-! ## Recovery -/

theorem recover_quiet (h : Quiet X fs) (hv : validate E X = none) :
    Safe FileOp.apply (Quiet X) (Ends (Quiet X)) (accountRedoRecover E) { durable := fs } := by
  have hlen := validate_length hv
  refine safe_ioRead_absent h.1 ?_
  refine safe_readFile (h.2 0) (hlen 0).2 (safe_readFile (h.2 1) (hlen 1).2 (safe_readFile (h.2 2) (hlen 2).2 ?_))
  rw [trio_eq, hv]
  exact (cleanup_safe h).mono (fun _ ht => ht) fun _ _ ⟨hr, t, hd, hq, _⟩ => ⟨hr, t, hd, hq⟩

theorem recover_redo (h : Redo E N g fs) (hv : validate E N = none) (hg : g ≠ 0) :
    Safe FileOp.apply (fun t => Redo E N g t ∨ Quiet N t) (Ends (Quiet N)) (accountRedoRecover E)
      { durable := fs } := by
  have hlen := validate_length hv
  refine safe_ioRead h.1 (length_record E N g).le ?_
  change Safe FileOp.apply _ _ (recoverRedo E (record E N g)) _
  unfold recoverRedo
  rw [if_neg (by simp [length_record, parse_record hv hg])]
  refine safe_check ?_
  refine safe_readChecked (h.2 0) (hlen 0).2 (recordLength_record E N g 0 (hlen 0).2).symm
    (recordSum_record E N g 0).symm ?_
  refine safe_readChecked (h.2 1) (hlen 1).2 (recordLength_record E N g 1 (hlen 1).2).symm
    (recordSum_record E N g 1).symm ?_
  refine safe_readChecked (h.2 2) (hlen 2).2 (recordLength_record E N g 2 (hlen 2).2).symm
    (recordSum_record E N g 2).symm ?_
  rw [trio_eq, hv]
  exact publish_safe h hv

/-! ## The update -/

/-- Staging keeps the old set; the rename of the record is the point of no return. -/
theorem stage_safe (h : Quiet X fs) (hv : validate E N = none) :
    Safe FileOp.apply (fun t => Quiet X t ∨ Redo E N g t ∨ Quiet N t) (Ends (Quiet N))
      (stageAndPublish E N (record E N g)) { durable := fs } := by
  refine safe_ends ((cleanup_safe h).mono (fun _ => .inl) fun _ _ hq => hq) fun t0 ⟨h0, hfree⟩ => ?_
  refine safe_ioWrite (hfree _ (by simp [cleaned])) (safe_ioWrite ?_ (safe_ioWrite ?_ (safe_flush (fun t ht => ?_) ?_)))
  · simp [hfree (.stage 1) (by simp [cleaned])]
  · simp [hfree (.stage 2) (by simp [cleaned])]
  · exact .inl (h0.congr fun r hr => cut_spares ht (by simp) hr)
  set t1 := Dev.view FileOp.apply ((((⟨t0, []⟩ : Dev Files FileOp).issue (.write (.stage 0) (N 0))).issue
    (.write (.stage 1) (N 1))).issue (.write (.stage 2) (N 2))) with ht1
  have hstage : ∀ i, t1 (.stage i) = some (N i) := by
    intro i
    match i with
    | 0 => simp [ht1]
    | 1 => simp [ht1]
    | 2 => simp [ht1]
  have hfree1 : t1 .intentTemp = none := by
    simp [ht1, hfree .intentTemp (by simp [cleaned])]
  have h1 : Quiet X t1 := by
    refine ⟨?_, fun i => ?_⟩
    · simp [ht1, h0.1]
    · simp [ht1, h0.2]
  clear_value t1
  refine safe_ioWrite hfree1 (safe_flush (fun t ht => ?_) ?_)
  · exact .inl (h1.congr fun r hr => cut_spares ht (by simp) hr)
  set t2 := Dev.view FileOp.apply ((⟨t1, []⟩ : Dev Files FileOp).issue (.write .intentTemp (record E N g))) with ht2
  have hintent : t2 .intentTemp = some (record E N g) := by simp [ht2]
  have hrest : ∀ r, r ≠ .intentTemp → t2 r = t1 r := by
    intro r hr
    simp [ht2, update_of_ne hr]
  have h2 : Quiet X t2 := h1.congr fun r hr => hrest r (by rintro rfl; cases hr)
  clear_value t2
  have hredo : Redo E N g (FileOp.apply t2 (.rename .intentTemp .pending)) := by
    refine ⟨by simp [hintent], fun i => ?_⟩
    simp [hintent, hrest, hstage]
  refine safe_ioRename hintent h2.1 (safe_flush (fun t ht => ?_) ?_)
  · rcases cut_of_singleton.1 ht with rfl | rfl
    · exact .inl h2
    · exact .inr (.inl hredo)
  · exact (publish_safe hredo hv).mono (fun _ => .inr) fun _ _ hq => hq

/-- An update that is refused changes nothing; one that is not ends with the new set. -/
theorem update_safe (h : Quiet X fs) (N : Trio) (g : UInt64) :
    (validate E N = none ∧ g ≠ 0 ∧
      Safe FileOp.apply (fun t => Quiet X t ∨ Redo E N g t ∨ Quiet N t) (Ends (Quiet N)) (accountRedoUpdate E N g)
        { durable := fs }) ∨
    Safe FileOp.apply (Quiet X) (fun r _ => r ≠ .ok ()) (accountRedoUpdate E N g) { durable := fs } := by
  have hcut : ∀ t, Cut FileOp.apply { durable := fs } t → Quiet X t := fun t ht => cut_of_nil.1 ht ▸ h
  unfold accountRedoUpdate
  by_cases hg : g = 0
  · rw [if_pos hg]
    exact .inr (safe_fail hcut (by simp))
  rw [if_neg hg]
  cases hv : validate E N with
  | some e => exact .inr (safe_fail hcut (by simp))
  | none => exact .inl ⟨rfl, hg, safe_check (safe_check (safe_ioRead_absent h.1 (stage_safe h hv)))⟩

/-! ## Any number of interruptions -/

/-- Recoveries that power cuts interrupt, one after the other. -/
inductive Interrupted (E : Env) : Files → Files → Prop
  | done (t : Files) : Interrupted E t t
  | cut {s t u : Files} : (accountRedoRecover E).Crashes FileOp.apply { durable := s } t → Interrupted E t u →
      Interrupted E s u

/-- Recovery on `t` returns 0 and leaves the canonical set `X` durable. -/
def RecoversTo (E : Env) (X : Trio) (t : Files) : Prop :=
  Ends (fun u => ∀ i, u (.canon i) = some (X i)) ((accountRedoRecover E).run FileOp.apply { durable := t }).1
    ((accountRedoRecover E).run FileOp.apply { durable := t }).2

theorem Interrupted.quiet (hv : validate E X = none) (h : Interrupted E s t) (hs : Quiet X s) : Quiet X t := by
  induction h with
  | done => exact hs
  | cut hc _ ih => exact ih ((recover_quiet hs hv).1 _ hc)

theorem Interrupted.redo (hv : validate E N = none) (hg : g ≠ 0)
    (h : Interrupted E s t) (hs : Redo E N g s ∨ Quiet N s) : Redo E N g t ∨ Quiet N t := by
  induction h with
  | done => exact hs
  | cut hc _ ih =>
    rcases hs with hs | hs
    · exact ih ((recover_redo hs hv hg).1 _ hc)
    · exact ih (.inr ((recover_quiet hs hv).1 _ hc))

theorem recoversTo_of_ends
    (h : Safe FileOp.apply C (Ends (Quiet X)) (accountRedoRecover E) { durable := t }) : RecoversTo E X t := by
  obtain ⟨hr, u, hu, hq⟩ := h.2
  exact ⟨hr, u, hu, hq.2⟩

theorem recoversTo_new (hv : validate E N = none) (hg : g ≠ 0)
    (h : Interrupted E s t) (hs : Redo E N g s ∨ Quiet N s) : RecoversTo E N t := by
  rcases h.redo hv hg hs with ht | ht
  · exact recoversTo_of_ends (recover_redo ht hv hg)
  · exact recoversTo_of_ends (recover_quiet ht hv)

/-- **The account update is atomic under power cuts.** From a valid set with no
record pending, a cut anywhere in the update and any number of cuts in the
recoveries after it leave a disk on which recovery returns 0 with the old set or
with the new one in place; and with the new one if the update had returned 0. -/
theorem account_update_atomic (E : Env) {fs : Files} {old : Trio} (hold : ∀ i, fs (.canon i) = some (old i))
    (hvalid : validate E old = none) (hpending : fs .pending = none) (new : Trio) (g : UInt64) :
    (∀ s t, (accountRedoUpdate E new g).Crashes FileOp.apply { durable := fs } s → Interrupted E s t →
      RecoversTo E old t ∨ RecoversTo E new t) ∧
    (((accountRedoUpdate E new g).run FileOp.apply { durable := fs }).1 = .ok () →
      ∀ s t, Cut FileOp.apply ((accountRedoUpdate E new g).run FileOp.apply { durable := fs }).2 s →
        Interrupted E s t → RecoversTo E new t) := by
  have h : Quiet old fs := ⟨hpending, hold⟩
  rcases update_safe h new g with ⟨hv, hg, hsafe⟩ | hsafe
  · refine ⟨fun s t hs hst => ?_, fun _ s t hs hst => ?_⟩
    · rcases hsafe.1 s hs with hq | hnew
      · exact .inl (recoversTo_of_ends (recover_quiet (hst.quiet hvalid hq) hvalid))
      · exact .inr (recoversTo_new hv hg hst hnew)
    obtain ⟨_, u, hu, hq⟩ := hsafe.2
    rw [hu, cut_of_nil] at hs
    subst hs
    exact recoversTo_new hv hg hst (.inr hq)
  · refine ⟨fun s t hs hst => ?_, fun hok => absurd hok hsafe.2⟩
    exact .inl (recoversTo_of_ends (recover_quiet (hst.quiet hvalid (hsafe.1 s hs)) hvalid))

/-- A digest of constant bytes and a check that accepts every database. -/
def plainEnv : Env where
  hash _ := List.replicate 32 0
  length_hash _ := List.length_replicate
  check _ := none

/-- One-byte files. -/
def canonOf (X : Trio) : Files
  | .canon i => some (X i)
  | _ => none

theorem account_update_atomic_completed :
    ((accountRedoUpdate plainEnv (trio [4] [5] [6]) 1).run FileOp.apply
        { durable := canonOf (trio [1] [2] [3]) }).1 = .ok () ∧
      RecoversTo plainEnv (trio [4] [5] [6])
        ((accountRedoUpdate plainEnv (trio [4] [5] [6]) 1).run FileOp.apply
          { durable := canonOf (trio [1] [2] [3]) }).2.durable := by
  have hok : ((accountRedoUpdate plainEnv (trio [4] [5] [6]) 1).run FileOp.apply
      { durable := canonOf (trio [1] [2] [3]) }).1 = .ok () := by decide +kernel
  have hold : ∀ i, canonOf (trio [1] [2] [3]) (.canon i) = some (trio [1] [2] [3] i) := fun _ => rfl
  exact ⟨hok, (account_update_atomic plainEnv hold (by decide) rfl _ 1).2 hok _ _
    ⟨[], List.nil_sublist _, rfl⟩ (.done _)⟩

end Fortress.Account
