/-
Replay protection of the two receivers: what a whole sequence of frames,
fed with one key and one tracker that starts at zero, makes of the next one.

A receiver is gated by the tracker (`Gated`): it accepts a frame exactly when
a fresh tracker would and the window does not refuse the number, and it then
commits that number. The tracker is a window over the accepted numbers with
one exception (`marks`): zero doubles as "nothing accepted yet", so a first
number 0 is entered as 1. `Confused` says when that shows.
-/
import Fortress.Lib.Replay
import Fortress.Wlan.Protected

namespace Fortress.Wlan

open List
open Replay (Window Tracks)

/-! ## Receivers and their sessions -/

/-- A frame as it is handed to a receiver, with the size of the caller's output buffer. -/
structure Fed where
  frame : Bytes
  outLen : Nat

structure Receiver where
  number : Bytes → UInt64
  decrypt : Bytes → Nat → ReplayTracker → Except Int (Bytes × ReplayTracker)

def ccmpReceiver (tk : Bytes) : Receiver := ⟨ccmpPn, wlanCcmpDecryptFrame tk⟩

def tkipReceiver (gtk : Bytes) : Receiver := ⟨tkipTsc, wlanTkipDecryptFrame gtk⟩

/-- The tracker, and a record of the numbers accepted so far, the latest first. -/
structure Session where
  tracker : ReplayTracker
  accepted : List Nat

namespace Receiver

variable (R : Receiver)

def num (f : Fed) : Nat := (R.number f.frame).toNat

def Accepts (t : ReplayTracker) (f : Fed) : Prop := (R.decrypt f.frame f.outLen t).isOk = true

/-- The frame opens under the key, whatever was received before it. -/
def Authentic (f : Fed) : Prop := R.Accepts .zero f

def receive (s : Session) (f : Fed) : Session :=
  match R.decrypt f.frame f.outLen s.tracker with
  | .ok (_, t) => { tracker := t, accepted := R.num f :: s.accepted }
  | .error _ => s

def run (fs : List Fed) : Session := fs.foldl R.receive ⟨.zero, []⟩

/-- What the tracker owes the next frame: nothing twice, and nothing lost inside the window. -/
structure Right (s : Session) (f : Fed) : Prop where
  fresh : R.Accepts s.tracker f → R.num f ∉ s.accepted
  admitted : R.Authentic f → R.num f ∉ s.accepted → (∀ m ∈ s.accepted, m < R.num f + 64) → R.Accepts s.tracker f

/-- The tracker decides nothing but replay, and records every number it lets through. -/
def Gated : Prop := ∀ (t t' : ReplayTracker) (f : Fed) (out : Bytes),
  R.decrypt f.frame f.outLen t = .ok (out, t') ↔
    (∃ t₀, R.decrypt f.frame f.outLen .zero = .ok (out, t₀)) ∧
      replayRefuses t (R.number f.frame) = false ∧ t' = replayCommit t (R.number f.frame)

end Receiver

theorem replayRefuses_zero (pn : UInt64) : replayRefuses .zero pn = false := rfl

/-- The end of both receivers: the window has let the number through and the body is opened. -/
theorem opened_ok_iff {plain : Option Bytes} {hdr out : Bytes} {t t' u : ReplayTracker} :
    (match plain with
      | none => (.error (-1) : Except Int (Bytes × ReplayTracker))
      | some p => .ok (hdr ++ p, t)) = .ok (out, t') ↔
    (∃ t0 : ReplayTracker, (match plain with
      | none => (.error (-1) : Except Int (Bytes × ReplayTracker))
      | some p => .ok (hdr ++ p, u)) = .ok (out, t0)) ∧ t' = t := by
  cases plain with
  | none => simp
  | some p => simp [eq_comm]

-- The checks around the window answer the same whatever the tracker holds.
theorem ccmpReceiver_gated (tk : Bytes) : (ccmpReceiver tk).Gated := by
  intro t t' f out
  simp only [ccmpReceiver, wlanCcmpDecryptFrame, replayRefuses_zero]
  split
  · simp
  split
  · simp
  split
  · simp
  cases replayRefuses t (ccmpPn f.frame) with
  | true => simp
  | false =>
    simp only [Bool.false_eq_true, if_false, true_and]
    split
    · simp
    · exact opened_ok_iff

theorem tkipReceiver_gated (gtk : Bytes) : (tkipReceiver gtk).Gated := by
  intro t t' f out
  simp only [tkipReceiver, wlanTkipDecryptFrame, replayRefuses_zero]
  split
  · simp
  split
  · simp
  split
  · simp
  split
  · simp
  split
  · simp
  split
  · simp
  cases replayRefuses t (tkipTsc f.frame) with
  | true => simp
  | false =>
    simp only [Bool.false_eq_true, if_false, true_and]
    exact opened_ok_iff

namespace Receiver

variable {R : Receiver}

theorem Gated.accepts_iff (hR : R.Gated) (t : ReplayTracker) (f : Fed) :
    R.Accepts t f ↔ R.Authentic f ∧ replayRefuses t (R.number f.frame) = false := by
  have hok : ∀ u, R.Accepts u f ↔ ∃ out t', R.decrypt f.frame f.outLen u = .ok (out, t') := by
    intro u
    rw [Accepts]
    cases R.decrypt f.frame f.outLen u with
    | error e => simp [Except.isOk, Except.toBool]
    | ok r => exact ⟨fun _ => ⟨r.1, r.2, rfl⟩, fun _ => rfl⟩
  rw [Authentic, hok t, hok .zero]
  constructor
  · rintro ⟨out, t', h⟩
    obtain ⟨h0, hn, -⟩ := (hR t t' f out).1 h
    exact ⟨⟨out, h0⟩, hn⟩
  · rintro ⟨⟨out, h0⟩, hn⟩
    exact ⟨out, _, (hR t _ f out).2 ⟨h0, hn, rfl⟩⟩

end Receiver

/-! ## The tracker as a window -/

namespace ReplayTracker

def window (t : ReplayTracker) : Window 64 := ⟨t.rxPn.toNat, t.rxBitmap.toBitVec⟩

end ReplayTracker

theorem toNat_ne_zero {n : UInt64} : n ≠ 0 ↔ n.toNat ≠ 0 := by
  rw [Ne, ← UInt64.toNat_inj]
  rfl

theorem toBitVec_shiftLeft (b : UInt64) {d : UInt64} (h : d.toNat < 64) :
    (b <<< d).toBitVec = b.toBitVec <<< d.toNat := by
  have hd : (d.toBitVec % 64).toNat = d.toNat := by
    rw [BitVec.toNat_umod, UInt64.toNat_toBitVec]
    exact Nat.mod_eq_of_lt h
  rw [UInt64.toBitVec_shiftLeft, BitVec.shiftLeft_eq', hd]

theorem bit_eq_getLsbD (b : UInt64) {d : UInt64} (h : d.toNat < 64) :
    (b &&& (1 <<< d) != 0) = b.toBitVec.getLsbD d.toNat := by
  have hne : BitVec.twoPow 64 d.toNat ≠ 0#64 := by
    rw [Ne, ← BitVec.toNat_inj, BitVec.toNat_twoPow_of_lt h]
    exact Nat.ne_of_gt (Nat.two_pow_pos _)
  rw [Bool.eq_iff_iff, bne_iff_ne, Ne, ← UInt64.toBitVec_inj, UInt64.toBitVec_and, toBitVec_shiftLeft _ h,
    UInt64.toBitVec_one, ← BitVec.twoPow_eq, BitVec.and_twoPow]
  split <;> simp_all

variable {t : ReplayTracker} {acc : List Nat}

/-- A tracker that has accepted something refuses what its window refuses. -/
theorem replayRefuses_eq (ht : t.rxPn ≠ 0) (pn : UInt64) : replayRefuses t pn = t.window.refuses pn.toNat := by
  rw [replayRefuses, if_pos ht, Window.refuses]
  dsimp only
  by_cases hle : pn ≤ t.rxPn
  · have hle' : pn.toNat ≤ t.window.top := UInt64.le_iff_toNat_le.1 hle
    have hdiff : (t.rxPn - pn).toNat = t.window.top - pn.toNat := UInt64.toNat_sub_of_le _ _ hle
    rw [if_pos hle, decide_eq_true hle', Bool.true_and, ← hdiff]
    by_cases hout : t.rxPn - pn ≥ 64
    · have hout' : 64 ≤ (t.rxPn - pn).toNat := UInt64.le_iff_toNat_le.1 hout
      rw [decide_eq_true hout, decide_eq_true hout', Bool.true_or, Bool.true_or]
    have hin : ¬64 ≤ (t.rxPn - pn).toNat := fun h => hout (UInt64.le_iff_toNat_le.2 h)
    rw [decide_eq_false hout, decide_eq_false hin, Bool.false_or, Bool.false_or]
    exact bit_eq_getLsbD _ (Nat.lt_of_not_le hin)
  · have hle' : ¬pn.toNat ≤ t.window.top := fun h => hle (UInt64.le_iff_toNat_le.2 h)
    rw [if_neg hle, decide_eq_false hle', Bool.false_and]

theorem replayCommit_first (ht : t.rxPn = 0) (pn : UInt64) :
    (replayCommit t pn).window = Window.first (max 1 pn.toNat) := by
  rw [replayCommit, if_pos ht]
  by_cases hpn : pn = 0
  · rw [if_pos hpn, hpn]
    rfl
  have hpos : 1 ≤ pn.toNat := Nat.one_le_iff_ne_zero.2 (toNat_ne_zero.1 hpn)
  rw [if_neg hpn, Nat.max_eq_right hpos]
  rfl

theorem replayCommit_window (ht : t.rxPn ≠ 0) (pn : UInt64) :
    (replayCommit t pn).window = t.window.mark pn.toNat := by
  rw [replayCommit, if_neg ht, Window.mark]
  dsimp only
  by_cases hgt : pn > t.rxPn
  · have hlt : t.window.top < pn.toNat := UInt64.lt_iff_toNat_lt.1 hgt
    have hdiff : (pn - t.rxPn).toNat = pn.toNat - t.window.top :=
      UInt64.toNat_sub_of_le _ _ (UInt64.le_of_lt hgt)
    rw [if_pos hgt, if_pos hlt, ← hdiff]
    have hnat : pn - t.rxPn < 64 ↔ (pn - t.rxPn).toNat < 64 := UInt64.lt_iff_toNat_lt
    by_cases hin : pn - t.rxPn < 64
    · rw [if_pos hin, if_pos (hnat.1 hin), ReplayTracker.window, UInt64.toBitVec_or,
        toBitVec_shiftLeft _ (hnat.1 hin)]
      rfl
    · rw [if_neg hin, if_neg fun h => hin (hnat.2 h)]
      rfl
  have hnlt : ¬t.window.top < pn.toNat := fun h => hgt (UInt64.lt_iff_toNat_lt.2 h)
  have hdiff : (t.rxPn - pn).toNat = t.window.top - pn.toNat :=
    UInt64.toNat_sub_of_le _ _ (UInt64.not_lt.1 hgt)
  rw [if_neg hgt, if_neg hnlt, ← hdiff]
  have hnat : t.rxPn - pn < 64 ↔ (t.rxPn - pn).toNat < 64 := UInt64.lt_iff_toNat_lt
  by_cases hin : t.rxPn - pn < 64
  · rw [if_pos hin, if_pos (hnat.1 hin), ReplayTracker.window, UInt64.toBitVec_or,
      toBitVec_shiftLeft _ (hnat.1 hin)]
    rfl
  · rw [if_neg hin, if_neg fun h => hin (hnat.2 h)]

theorem replayCommit_ne_zero (t : ReplayTracker) (pn : UInt64) : (replayCommit t pn).rxPn ≠ 0 := by
  rw [replayCommit]
  split
  · dsimp only
    split
    · decide
    · assumption
  split
  · rename_i hgt
    dsimp only
    rw [toNat_ne_zero]
    have := UInt64.lt_iff_toNat_lt.1 hgt
    omega
  · dsimp only
    split <;> assumption

/-! ## What the tracker has marked -/

/-- The numbers entered for the accepted ones, the latest first: the very first is never entered as 0. -/
def marks : List Nat → List Nat
  | [] => []
  | [n] => [max 1 n]
  | n :: m :: acc => n :: marks (m :: acc)

theorem marks_cons (h : acc ≠ []) (n : Nat) : marks (n :: acc) = n :: marks acc := by
  cases acc with
  | nil => exact absurd rfl h
  | cons m acc => rfl

theorem marks_append (acc : List Nat) (n : Nat) : marks (acc ++ [n]) = acc ++ [max 1 n] := by
  induction acc with
  | nil => rfl
  | cons m acc ih =>
    rw [cons_append, marks_cons (by simp), ih, cons_append]

structure Marked (s : Session) : Prop where
  started : s.tracker.rxPn ≠ 0
  tracks : Tracks s.tracker.window (marks s.accepted)
  nodup : (marks s.accepted).Nodup

/-- Nothing was accepted and the tracker is as it began, or the tracker tracks what was accepted. -/
def SessionInv (s : Session) : Prop :=
  s.accepted = [] ∧ s.tracker = .zero ∨ s.accepted ≠ [] ∧ Marked s

namespace Receiver

variable {R : Receiver}

theorem receive_inv (hR : R.Gated) {s : Session} (hs : SessionInv s) (f : Fed) : SessionInv (R.receive s f) := by
  unfold receive
  cases hdec : R.decrypt f.frame f.outLen s.tracker with
  | error e => exact hs
  | ok r =>
    obtain ⟨out, t'⟩ := r
    obtain ⟨-, hn, rfl⟩ := (hR _ _ f out).1 hdec
    refine .inr ⟨cons_ne_nil _ _, ?_⟩
    rcases hs with ⟨hnil, hzero⟩ | ⟨hne, hm⟩
    · refine ⟨replayCommit_ne_zero _ _, ?_, ?_⟩
      · rw [hnil, replayCommit_first (by rw [hzero]; rfl)]
        exact .first _
      · rw [hnil]
        simp [marks]
    rw [replayRefuses_eq hm.started] at hn
    refine ⟨replayCommit_ne_zero _ _, ?_, ?_⟩
    · rw [replayCommit_window hm.started, marks_cons hne]
      exact hm.tracks.mark _
    rw [marks_cons hne, nodup_cons]
    refine ⟨fun hmem => ?_, hm.nodup⟩
    have href := (hm.tracks.refuses_iff (R.num f)).2 (.inl hmem)
    exact Bool.false_ne_true (hn.symm.trans href)

theorem run_inv (hR : R.Gated) (fs : List Fed) : SessionInv (R.run fs) := by
  exact foldlRecOn fs R.receive (.inl ⟨rfl, rfl⟩) fun _ hs f _ => receive_inv hR hs f

end Receiver

/-! ## The next frame -/

/-- The first accepted number was 0 and the window still reaches it: 0 would pass once more, and 1 not at all. -/
def Confused (accepted : List Nat) (n : Nat) : Prop :=
  accepted.getLast? = some 0 ∧
    (n = 0 ∧ accepted.count 0 = 1 ∧ (∀ m ∈ accepted, m < 64) ∨ n = 1 ∧ ∀ m ∈ accepted, m < 65)

/-- Accepted under the marks, against owed under the accepted numbers themselves. -/
theorem marks_right_iff (hne : acc ≠ []) (hnd : (marks acc).Nodup) (n : Nat) :
    ((¬(n ∈ marks acc ∨ ∃ m ∈ marks acc, n + 64 ≤ m) → n ∉ acc) ∧
      (n ∉ acc → (∀ m ∈ acc, m < n + 64) → ¬(n ∈ marks acc ∨ ∃ m ∈ marks acc, n + 64 ≤ m))) ↔
    ¬Confused acc n := by
  obtain ⟨l, k, rfl⟩ : ∃ l k, acc = l ++ [k] :=
    ⟨acc.dropLast, acc.getLast hne, (dropLast_append_getLast hne).symm⟩
  rw [marks_append] at hnd ⊢
  rcases Nat.eq_zero_or_pos k with rfl | hk
  · -- The first number was 0 and stands in the window as 1.
    have h1 : 1 ∉ l := fun h => (nodup_append.1 hnd).2.2 1 h 1 (by simp) rfl
    have hcount : (l ++ [0]).count 0 = 1 ↔ 0 ∉ l := by
      rw [count_append, count_singleton_self, Nat.add_eq_right, count_eq_zero]
    simp only [Confused, getLast?_concat, hcount, true_and, mem_append, mem_singleton,
      Nat.max_eq_left (Nat.zero_le 1)]
    constructor
    · rintro ⟨hfresh, hadm⟩ (⟨rfl, h0, hw⟩ | ⟨rfl, hw⟩)
      · refine hfresh ?_ (.inr rfl)
        rintro ((h | h) | ⟨m, h | rfl, hlow⟩)
        · exact h0 h
        · omega
        · exact absurd (hw m (.inl h)) (by omega)
        · omega
      refine hadm ?_ (fun m hm => hw m hm) (.inl (.inr rfl))
      rintro (h | h)
      · exact h1 h
      · omega
    intro hsafe
    refine ⟨?_, ?_⟩
    · rintro hpass (h | rfl)
      · exact hpass (.inl (.inl h))
      refine hsafe (.inl ⟨rfl, fun h => hpass (.inl (.inl h)), ?_⟩)
      rintro m (h | rfl)
      · exact Nat.lt_of_not_le fun hlow => hpass (.inr ⟨m, .inl h, by omega⟩)
      · omega
    · rintro hn hw ((h | rfl) | ⟨m, h | rfl, hlow⟩)
      · exact hn (.inl h)
      · exact hsafe (.inr ⟨rfl, hw⟩)
      · exact absurd (hw m (.inl h)) (by omega)
      · omega
  have hmax : max 1 k = k := Nat.max_eq_right hk
  rw [hmax]
  have hsound : ¬Confused (l ++ [k]) n := by
    rintro ⟨hlast, -⟩
    rw [getLast?_concat, Option.some_inj] at hlast
    omega
  refine ⟨fun _ => hsound, fun _ => ⟨fun h hm => h (.inl hm), ?_⟩⟩
  rintro hn hw (hm | ⟨m, hm, hlow⟩)
  · exact hn hm
  · exact absurd (hw m hm) (by omega)

namespace Receiver

variable {R : Receiver}

theorem right_iff (hR : R.Gated) (fs : List Fed) (f : Fed) :
    R.Right (R.run fs) f ↔ ¬(R.Authentic f ∧ Confused (R.run fs).accepted (R.num f)) := by
  rcases run_inv hR fs with ⟨hnil, hzero⟩ | ⟨hne, hm⟩
  · -- Nothing was accepted yet, so nothing can be repeated or refused.
    rw [hnil]
    refine ⟨fun _ h => by simp [Confused] at h, fun _ => ⟨fun _ => by simp [hnil], fun ha _ _ => ?_⟩⟩
    rw [hzero]
    exact ha
  have hacc : R.Accepts (R.run fs).tracker f ↔ R.Authentic f ∧
      ¬(R.num f ∈ marks (R.run fs).accepted ∨ ∃ m ∈ marks (R.run fs).accepted, R.num f + 64 ≤ m) := by
    rw [hR.accepts_iff, replayRefuses_eq hm.started, ← hm.tracks.refuses_iff, Bool.not_eq_true]
    rfl
  have hmarks := marks_right_iff hne hm.nodup (R.num f)
  constructor
  · rintro ⟨hfresh, hadm⟩ ⟨ha, hconf⟩
    refine hmarks.1 ⟨fun h => hfresh (hacc.2 ⟨ha, h⟩), fun hn hw => ?_⟩ hconf
    exact (hacc.1 (hadm ha hn hw)).2
  intro hsafe
  refine ⟨fun h => ?_, fun ha hn hw => ?_⟩
  · obtain ⟨ha, hpass⟩ := hacc.1 h
    exact (hmarks.2 fun hconf => hsafe ⟨ha, hconf⟩).1 hpass
  · exact hacc.2 ⟨ha, (hmarks.2 fun hconf => hsafe ⟨ha, hconf⟩).2 hn hw⟩

end Receiver

/-- **Replay protection of both receivers.** After any sequence of frames under one key, from a tracker at
zero, the next frame is treated right (its number is not accepted again, and if it is authentic, new and
inside the window it is accepted) except in one case: the very first accepted number was 0, which the
tracker entered as 1, and the frame is an authentic 0 or 1 that the window still reaches. -/
theorem replay_right_iff (tk gtk : Bytes) (fs : List Fed) (f : Fed) :
    ((ccmpReceiver tk).Right ((ccmpReceiver tk).run fs) f ↔
      ¬((ccmpReceiver tk).Authentic f ∧
        Confused ((ccmpReceiver tk).run fs).accepted ((ccmpReceiver tk).num f))) ∧
    ((tkipReceiver gtk).Right ((tkipReceiver gtk).run fs) f ↔
      ¬((tkipReceiver gtk).Authentic f ∧
        Confused ((tkipReceiver gtk).run fs).accepted ((tkipReceiver gtk).num f))) :=
  ⟨Receiver.right_iff (ccmpReceiver_gated tk) fs f, Receiver.right_iff (tkipReceiver_gated gtk) fs f⟩

/-! ## Packet number 0, twice -/

def zeroKey : Bytes := List.replicate 16 0

/-- An empty data frame sealed under the all-zero key with packet number 0. -/
def zeroPnFrame : Bytes := (wlanCcmpEncryptFrame zeroKey 0 (List.replicate 24 0) 40).toOption.getD []

theorem zeroPn_accepts {s : Session} (hw : replayRefuses s.tracker 0 = false) :
    (ccmpReceiver zeroKey).num ⟨zeroPnFrame, 24⟩ = 0 ∧
    (ccmpReceiver zeroKey).Accepts s.tracker ⟨zeroPnFrame, 24⟩ ∧
    (ccmpReceiver zeroKey).receive s ⟨zeroPnFrame, 24⟩ = ⟨replayCommit s.tracker 0, 0 :: s.accepted⟩ := by
  obtain ⟨frame, hs, hnum, hdec⟩ := wlanCcmpDecryptFrame_encrypt zeroKey (p := replicate 24 0) (by decide)
    (by decide) (Nat.le_refl 40) (Nat.le_refl 24) hw
  obtain rfl : zeroPnFrame = frame := by
    rw [zeroPnFrame, hs]
    rfl
  have hzero : (ccmpReceiver zeroKey).num ⟨zeroPnFrame, 24⟩ = 0 := by
    rfl
  refine ⟨hzero, ?_, ?_⟩
  · simp only [Receiver.Accepts, ccmpReceiver, hdec]
    rfl
  · rw [Receiver.receive, hzero]
    simp only [ccmpReceiver, hdec]

/-- The encryptor's own frame with packet number 0 is accepted, and then accepted again. -/
theorem zeroPn_accepted_twice :
    ((ccmpReceiver zeroKey).run [⟨zeroPnFrame, 24⟩, ⟨zeroPnFrame, 24⟩]).accepted = [0, 0] ∧
    ¬(ccmpReceiver zeroKey).Right ((ccmpReceiver zeroKey).run [⟨zeroPnFrame, 24⟩]) ⟨zeroPnFrame, 24⟩ := by
  obtain ⟨-, -, hfirst⟩ := zeroPn_accepts (s := ⟨.zero, []⟩) (replayRefuses_zero 0)
  obtain ⟨hnum, hacc, hsecond⟩ := zeroPn_accepts (s := ⟨replayCommit .zero 0, [0]⟩) (by decide)
  rw [Receiver.run, Receiver.run, foldl_cons, foldl_cons, foldl_cons, foldl_nil,
    foldl_nil, hfirst, hsecond]
  refine ⟨rfl, fun hright => hright.fresh hacc ?_⟩
  rw [hnum]
  exact mem_singleton.2 rfl

end Fortress.Wlan
