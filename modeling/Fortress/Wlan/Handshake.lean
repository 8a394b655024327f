/-
Whole handshakes of net/wlan/wlan_wpa2.c: what a sequence of frames does to
the replay counter, and what a frame answered with -1 leaves behind.
-/
import Fortress.Wlan.Wpa2

namespace Fortress.Wlan

open Codec (slice)

/-! ## The counter over a run -/

/-- The frame is answered as a Message 3. -/
def acceptsM3 (sm : Sm) (seed : UInt32) (f : Bytes) (n : Nat) : Bool :=
  isMessage3 sm f && (wpa2SmRxEapol sm seed f n).resp.isSome

/-- `last_replay_counter` before the frames and after each of them; every
frame comes with the room for its response. -/
def counters (sm : Sm) (seed : UInt32) : List (Bytes × Nat) → List UInt64
  | [] => [sm.lastReplayCounter]
  | (f, n) :: fs =>
    let r := wpa2SmRxEapol sm seed f n
    sm.lastReplayCounter :: counters r.sm r.seed fs

/-- The counters of the frames answered as Message 3. -/
def acceptedCounters (sm : Sm) (seed : UInt32) : List (Bytes × Nat) → List UInt64
  | [] => []
  | (f, n) :: fs =>
    let r := wpa2SmRxEapol sm seed f n
    if acceptsM3 sm seed f n then replayCounter f :: acceptedCounters r.sm r.seed fs
    else acceptedCounters r.sm r.seed fs

/-- What the counter is for: it never decreases, and no two accepted
Message 3 frames carry the same one. -/
structure ReplayGuarded (sm : Sm) (seed : UInt32) (fs : List (Bytes × Nat)) : Prop where
  monotone : (counters sm seed fs).IsChain (· ≤ ·)
  once : (acceptedCounters sm seed fs).Nodup

section
variable {sm s : Sm} {seed : UInt32} {f mic : Bytes} {n : Nat} {fs : List (Bytes × Nat)}

theorem rxMessage1_counter : (rxMessage1 sm seed f n).sm.lastReplayCounter = replayCounter f := by
  rcases rxMessage1_cases sm seed f n with ⟨_, hx⟩ | ⟨_, hx⟩ <;> rw [hx] <;> rfl

/-- The state once the counter of an authentic frame is stored. -/
def counted (sm : Sm) (f : Bytes) : Sm := { sm with lastReplayCounter := replayCounter f }

/-- The state once its group key is stored as well. -/
def keyed (sm : Sm) (f : Bytes) (idx : UInt8) (key : Bytes) : Sm :=
  { counted sm f with
    gtkIdx := idx, gtk := key ++ List.replicate (32 - key.length) 0, gtkLen := key.length.toUInt8 }

/-- The key data holds this group key at this index. -/
def Holds (sm : Sm) (f : Bytes) (idx : UInt8) (key : Bytes) : Prop :=
  ∃ buf, kdeBuffer sm f = some buf ∧ deliveredGtk sm buf = .gtk idx key

/-- The Message 3 is authentic, holds a group key and leaves room for its answer. -/
def Acceptable (sm : Sm) (f : Bytes) (n : Nat) : Prop :=
  Passes sm f ∧ (∃ idx key, Holds (counted sm f) f idx key) ∧ MIN_LEN ≤ n

open Classical in
/-- Every Message 1 carries at least the recorded counter, and no acceptable Message 3 the counter of
the one before it. -/
def Orderly (sm : Sm) (seed : UInt32) (latest : Option UInt64) : List (Bytes × Nat) → Prop
  | [] => True
  | (f, n) :: fs =>
    let r := wpa2SmRxEapol sm seed f n
    (isMessage1 sm f = true → sm.lastReplayCounter ≤ replayCounter f) ∧
      (Acceptable sm f n → latest ≠ some (replayCounter f)) ∧
      Orderly r.sm r.seed (if Acceptable sm f n then some (replayCounter f) else latest) fs

/-- Everything an authentic Message 3 can do: it is refused for its key data,
or for the room of the response, or it authorizes the port. -/
inductive Takes (sm : Sm) (seed : UInt32) (f : Bytes) (n : Nat) : Rx → Prop
  | refused (idx : UInt8) : Takes sm seed f n ⟨{ counted sm f with gtkIdx := idx }, seed, none⟩
  | noRoom {idx : UInt8} {key : Bytes} (hk : Holds (counted sm f) f idx key) (hn : n < MIN_LEN) :
      Takes sm seed f n ⟨keyed sm f idx key, seed, none⟩
  | answered {idx : UInt8} {key : Bytes} (hk : Holds (counted sm f) f idx key) (hn : MIN_LEN ≤ n)
      (resp : Bytes) :
      Takes sm seed f n
        ⟨{ keyed sm f idx key with portAuthorized := true, handshakeStep := 4 }, seed, some resp⟩

theorem acceptMessage3_takes (sm : Sm) (seed : UInt32) (f : Bytes) (n : Nat) :
    Takes sm seed f n (acceptMessage3 sm seed f n) := by
  unfold acceptMessage3
  dsimp only
  split
  · exact .refused sm.gtkIdx
  rename_i buf hbuf
  split
  · exact .refused sm.gtkIdx
  · exact .refused _
  rename_i idx key hkey
  split
  · rename_i hn
    exact .noRoom ⟨buf, hbuf, hkey⟩ hn
  · rename_i hn
    exact .answered ⟨buf, hbuf, hkey⟩ (Nat.le_of_not_lt hn) _

theorem Takes.counter {r : Rx} (h : Takes sm seed f n r) : r.sm.lastReplayCounter = replayCounter f := by
  cases h <;> rfl

theorem Takes.keys {r : Rx} (h : Takes sm seed f n r) : r.sm.kck = sm.kck ∧ r.sm.useSae = sm.useSae := by
  cases h <;> exact ⟨rfl, rfl⟩

/-- One frame keeps the counter or raises it, unless it is a Message 1 with a smaller one. -/
theorem counter_step (sm : Sm) (seed : UInt32) (f : Bytes) (n : Nat) :
    sm.lastReplayCounter ≤ (wpa2SmRxEapol sm seed f n).sm.lastReplayCounter ↔
      (isMessage1 sm f = true → sm.lastReplayCounter ≤ replayCounter f) := by
  rcases wpa2SmRxEapol_cases sm seed f n with ⟨h1, hx⟩ | ⟨h1, hx⟩ | ⟨hp, hx⟩
  · rw [hx, h1]
    exact ⟨fun _ h => absurd h Bool.false_ne_true, fun _ => UInt64.le_refl _⟩
  · rw [hx, h1, rxMessage1_counter]
    exact ⟨fun h _ => h, fun h => h rfl⟩
  · rw [hx, (acceptMessage3_takes sm seed f n).counter]
    exact ⟨fun h _ => h, fun _ => hp.counter⟩

theorem acceptsM3_takes (h : acceptsM3 sm seed f n = true) :
    Passes sm f ∧ Takes sm seed f n (wpa2SmRxEapol sm seed f n) := by
  simp only [acceptsM3, Bool.and_eq_true] at h
  rcases wpa2SmRxEapol_cases sm seed f n with ⟨_, hx⟩ | ⟨h1, _⟩ | ⟨hp, hx⟩
  · rw [hx] at h
    exact absurd h.2 Bool.false_ne_true
  · simp [isMessage1, isMessage3_mic h.1] at h1
  · rw [hx]
    exact ⟨hp, acceptMessage3_takes sm seed f n⟩

theorem Passes.rx (h : Passes sm f) : wpa2SmRxEapol sm seed f n = acceptMessage3 sm seed f n := by
  have h1 : isMessage1 sm f = false := by simp [isMessage1, isMessage3_mic h.message]
  rw [wpa2SmRxEapol, h1, if_neg Bool.false_ne_true, if_pos h.message, rxMessage3, if_neg (UInt32.not_lt.2 h.step),
    if_neg (UInt64.not_lt.2 h.counter), if_neg (Nat.not_lt.2 h.fits), h.mic.2.2,
    if_neg (Decidable.not_not.2 ((micDiff_eq_zero rfl).2 rfl))]

/-- A Message 3 is answered exactly when it is acceptable. -/
theorem acceptsM3_iff : acceptsM3 sm seed f n = true ↔ Acceptable sm f n := by
  constructor
  · intro h
    obtain ⟨hp, ht⟩ := acceptsM3_takes h
    have hr := (Bool.and_eq_true_iff.1 h).2
    generalize wpa2SmRxEapol sm seed f n = r at ht hr
    cases ht with
    | refused | noRoom => cases hr
    | answered hk hn => exact ⟨hp, ⟨_, _, hk⟩, hn⟩
  · rintro ⟨hp, ⟨idx, key, buf, hbuf, hkey⟩, hn⟩
    rw [acceptsM3, hp.message, hp.rx, acceptMessage3]
    change kdeBuffer { sm with lastReplayCounter := _ } f = _ at hbuf
    change deliveredGtk { sm with lastReplayCounter := _ } buf = _ at hkey
    simp only [hbuf, hkey, if_neg (Nat.not_lt.2 hn)]
    rfl

theorem chain_counters : (counters sm seed ((f, n) :: fs)).IsChain (· ≤ ·) ↔
    sm.lastReplayCounter ≤ (wpa2SmRxEapol sm seed f n).sm.lastReplayCounter ∧
      (counters (wpa2SmRxEapol sm seed f n).sm (wpa2SmRxEapol sm seed f n).seed fs).IsChain (· ≤ ·) := by
  cases fs <;> simp [counters]

theorem acceptedCounters_ge {c : UInt64} (h : (counters sm seed fs).IsChain (· ≤ ·))
    (hc : c ∈ acceptedCounters sm seed fs) : sm.lastReplayCounter ≤ c := by
  induction fs generalizing sm seed with
  | nil => cases hc
  | cons x fs ih =>
    obtain ⟨hle, hrest⟩ := chain_counters.1 h
    unfold acceptedCounters at hc
    split at hc
    · rename_i hacc
      cases hc with
      | head => exact (acceptsM3_takes hacc).1.counter
      | tail _ hc => exact UInt64.le_trans hle (ih hrest hc)
    · exact UInt64.le_trans hle (ih hrest hc)

/-- The induction carries that the accepted counters so far are at most the recorded one. -/
theorem orderly_iff {latest : Option UInt64} (hl : ∀ c ∈ latest, c ≤ sm.lastReplayCounter) :
    (counters sm seed fs).IsChain (· ≤ ·) ∧ (latest.toList ++ acceptedCounters sm seed fs).Nodup ↔
      Orderly sm seed latest fs := by
  induction fs generalizing sm seed latest with
  | nil => cases latest <;> simp [counters, acceptedCounters, Orderly]
  | cons x fs ih =>
    obtain ⟨f, n⟩ := x
    rw [chain_counters, Orderly, ← counter_step sm seed f n, acceptedCounters]
    simp only [← @acceptsM3_iff _ seed]
    by_cases hle : sm.lastReplayCounter ≤ (wpa2SmRxEapol sm seed f n).sm.lastReplayCounter
    · cases hacc : acceptsM3 sm seed f n with
      | false => simpa [hle] using ih fun c hc => UInt64.le_trans (hl c hc) hle
      | true =>
        obtain ⟨hp, ht⟩ := acceptsM3_takes hacc
        have hc : ∀ c ∈ some (replayCounter f), c ≤ (wpa2SmRxEapol sm seed f n).sm.lastReplayCounter := by
          simp [ht.counter]
        simp only [hle, true_and, if_true, true_implies, ← ih hc]
        cases latest with
        | none => simp
        | some d =>
          -- The latest counter cannot come back later: what follows is at least `replayCounter f`.
          have hd : d ≤ replayCounter f := UInt64.le_trans (hl d rfl) hp.counter
          have hback : ∀ h : (counters (wpa2SmRxEapol sm seed f n).sm (wpa2SmRxEapol sm seed f n).seed
              fs).IsChain (· ≤ ·), d ∈ acceptedCounters (wpa2SmRxEapol sm seed f n).sm
              (wpa2SmRxEapol sm seed f n).seed fs → d = replayCounter f := fun h hm =>
            UInt64.le_antisymm hd (ht.counter ▸ acceptedCounters_ge h hm)
          simp only [Option.toList_some, List.singleton_append, List.nodup_cons, List.mem_cons, not_or, ne_eq,
            Option.some.injEq]
          grind
    · simp [hle]

/-- **The guard holds exactly for orderly frames.** -/
theorem replayGuarded_iff (sm : Sm) (seed : UInt32) (fs : List (Bytes × Nat)) :
    ReplayGuarded sm seed fs ↔ Orderly sm seed none fs := by
  rw [← orderly_iff (by simp)]
  exact ⟨fun h => ⟨h.monotone, h.once⟩, fun h => ⟨h.1, h.2⟩⟩

/-- Frames that differ in the MIC only are read alike. -/
theorem read_alike {g : Bytes} (s : Sm) (seed : UInt32) (n : Nat) (hlen : g.length = f.length)
    (hget : ∀ i, i < 81 ∨ 97 ≤ i → g[i]? = f[i]?) :
    isMessage3 s g = isMessage3 s f ∧ replayCounter g = replayCounter f ∧ eapolTotalLen g = eapolTotalLen f ∧
      acceptMessage3 s seed g n = acceptMessage3 s seed f n := by
  have hslice : ∀ off k, off + k ≤ 81 ∨ 97 ≤ off → slice g off k = slice f off k := fun off k h =>
    List.ext_getElem? fun i => by
      simp only [slice, List.getElem?_take, List.getElem?_drop]
      grind
  have hbe : ∀ off, off + 2 ≤ 81 ∨ 97 ≤ off → be16 g off = be16 f off := fun off h => by
    simp only [be16, List.getD_eq_getElem?_getD]
    rw [hget _ (by omega), hget _ (by omega)]
  have hinfo : keyInfo g = keyInfo f := hbe 5 (by decide)
  have hcount : replayCounter g = replayCounter f := by simp [replayCounter, be64, hslice]
  have htotal : eapolTotalLen g = eapolTotalLen f := by simp [eapolTotalLen, frameLength, hlen, hbe]
  have hkde : ∀ s, kdeBuffer s g = kdeBuffer s f := fun s => by
    rw [kdeBuffer, keyDataLen, htotal, hbe 97 (by decide), hasFlag, hinfo, hslice MIN_LEN _ (.inr (by decide))]
    rfl
  refine ⟨?_, hcount, htotal, ?_⟩
  · simp [isMessage3, admitted, versionOk, hasFlag, descVer, frameType, descType, hlen, hget, hinfo]
  · simp only [acceptMessage3, hcount, hkde, descVer, hinfo, hslice 9 8 (by decide)]

/-- A Message 3 as long as its header says passes with the MIC the station expects, which is
computed with the field set to zero. -/
theorem rx_signed (hf : MIN_LEN ≤ f.length ∧ f.length ≤ 512 ∧ eapolTotalLen f = f.length)
    (hs : isMessage3 s f = true ∧ 2 ≤ s.handshakeStep ∧ s.lastReplayCounter ≤ replayCounter f)
    (hk : s.kck = sm.kck ∧ s.useSae = sm.useSae) :
    isMessage3 s (splice f 81 (expectedMic sm f)) = true ∧
      replayCounter (splice f 81 (expectedMic sm f)) = replayCounter f ∧
      wpa2SmRxEapol s seed (splice f 81 (expectedMic sm f)) n = acceptMessage3 s seed f n := by
  have hm : (expectedMic sm f).length = 16 := length_eapolMic _ _
  have hsame : expectedMic s f = expectedMic sm f := by simp only [expectedMic, wpa2ComputeEapolMic, hk]
  generalize expectedMic sm f = mic at hm hsame ⊢
  have h81 : (f.take 81).length = 81 := by grind [MIN_LEN]
  have hlen : (splice f 81 mic).length = f.length := by grind [splice, MIN_LEN]
  obtain ⟨h3, hc, htotal, hacc⟩ := read_alike s seed n hlen fun i hi => by
    simp only [splice]
    grind
  have hkey : keyMic (splice f 81 mic) = mic := by simp [keyMic, slice, splice, hm, h81]
  have hexp : expectedMic s (splice f 81 mic) = mic := by
    refine Eq.trans ?_ hsame
    rw [expectedMic, expectedMic, htotal, hf.2.2, ← hlen, List.take_length, hlen, List.take_length]
    simp [splice, hm, h81, List.drop_append, List.drop_eq_nil_of_le]
  rw [← h3, ← hc] at hs
  have hpass : Passes s (splice f 81 mic) :=
    ⟨hs.1, hs.2.1, hs.2.2, by omega, isMessage3_mic hs.1, hlen ▸ hf.1, hkey.trans hexp.symm⟩
  exact ⟨hs.1, hc, hpass.rx.trans hacc⟩

/-- A Message 3 with this counter and clear key data, signed for the station. -/
def message3 (sm : Sm) (counter : UInt8) (keyData : Bytes) : Bytes :=
  let f := unsignedResponse 0x018A [0, 0, 0, 0, 0, 0, 0, counter] (List.replicate 32 0x55) keyData
  splice f 81 (expectedMic sm f)

def newSm : Sm := wpa2SmInit [0, 1, 2, 3, 4, 5] [6, 7, 8, 9, 10, 11] (List.replicate 32 0x77)

/-- A first message, and the third one to its answer with a group key element. -/
def firstM1 : Bytes := keyFrame 0x008A

def firstM3 : Bytes :=
  message3 (wpa2SmRxEapol newSm 1 firstM1 256).sm 3
    ([0xDD, 22, 0x00, 0x0F, 0xAC, 0x01, 1, 0] ++ List.replicate 16 0x22)

/-- `firstM3` before it is signed, the state it meets and the one it leaves. -/
def clearM3 : Bytes :=
  unsignedResponse 0x018A [0, 0, 0, 0, 0, 0, 0, 3] (List.replicate 32 0x55)
    ([0xDD, 22, 0x00, 0x0F, 0xAC, 0x01, 1, 0] ++ List.replicate 16 0x22)

def firstRx : Rx := wpa2SmRxEapol newSm 1 firstM1 256

def secondRx : Rx := acceptMessage3 firstRx.sm firstRx.seed clearM3 256

/-- From a new state machine: a Message 3 sent again is accepted again, and a
Message 1 sets the counter back. -/
theorem replay_unguarded :
    acceptedCounters newSm 1 [(firstM1, 256), (firstM3, 256), (firstM3, 256)] = [3, 3] ∧
      ¬ ReplayGuarded newSm 1 [(firstM1, 256), (firstM3, 256), (firstM3, 256)] ∧
      ¬ ReplayGuarded newSm 1 [(firstM1, 256), (splice firstM1 9 (List.replicate 8 0), 256)] := by
  -- no hash is computed: both times the frame carries the MIC that is expected
  have hrx : ∀ s seed, isMessage3 s clearM3 = true ∧ 2 ≤ s.handshakeStep ∧ s.lastReplayCounter ≤ replayCounter clearM3 →
      s.kck = firstRx.sm.kck ∧ s.useSae = firstRx.sm.useSae →
      isMessage3 s firstM3 = true ∧ replayCounter firstM3 = replayCounter clearM3 ∧
        wpa2SmRxEapol s seed firstM3 256 = acceptMessage3 s seed clearM3 256 := fun _ _ =>
    rx_signed (by decide +kernel)
  obtain ⟨h₁, hc, hrx₁⟩ := hrx firstRx.sm firstRx.seed (by decide +kernel) ⟨rfl, rfl⟩
  obtain ⟨h₂, -, hrx₂⟩ := hrx secondRx.sm secondRx.seed (by decide +kernel) (acceptMessage3_takes _ _ _ _).keys
  have htwice : acceptedCounters newSm 1 [(firstM1, 256), (firstM3, 256), (firstM3, 256)] = [3, 3] := by
    rw [acceptedCounters, if_neg (by decide)]
    change acceptedCounters firstRx.sm firstRx.seed _ = _
    change _ = secondRx at hrx₁
    simp only [acceptedCounters, acceptsM3, h₁, hrx₁, h₂, hrx₂, hc, Bool.true_and]
    decide +kernel
  have hback : counters newSm 1 [(firstM1, 256), (splice firstM1 9 (List.replicate 8 0), 256)] = [0, 3, 0] := by
    decide +kernel
  exact ⟨htwice, fun h => absurd (htwice ▸ h.once) (by decide), fun h => nomatch hback ▸ h.monotone⟩

/-! ## Frames answered with -1 -/

/-- What a frame answered with -1 leaves: nothing changed; the nonces, keys and
counter of a Message 1 whose answer has no room; the counter of an authentic
Message 3 whose key data is refused; or its group key too, where Message 4 has
no room. -/
inductive Leaves (sm : Sm) (seed : UInt32) (f : Bytes) (n : Nat) : Sm → Prop
  | unchanged : Leaves sm seed f n sm
  | message1 (h : isMessage1 sm f = true) (hn : n < MIN_LEN + if sm.useSae then 40 else 22) :
      Leaves sm seed f n (takeMessage1 sm seed f).1
  | refused (h : Passes sm f) (idx : UInt8) : Leaves sm seed f n { counted sm f with gtkIdx := idx }
  | message3 (h : Passes sm f) (hn : n < MIN_LEN) {idx : UInt8} {key : Bytes}
      (hk : Holds (counted sm f) f idx key) : Leaves sm seed f n (keyed sm f idx key)

/-- **What a rejected frame leaves behind.** The step and the authorization are
never touched, and the rest only as `Leaves` says. -/
theorem rejected_frame (h : (wpa2SmRxEapol sm seed f n).resp = none) :
    (wpa2SmRxEapol sm seed f n).sm.handshakeStep = sm.handshakeStep ∧
      (wpa2SmRxEapol sm seed f n).sm.portAuthorized = sm.portAuthorized ∧
      Leaves sm seed f n (wpa2SmRxEapol sm seed f n).sm := by
  rcases wpa2SmRxEapol_cases sm seed f n with ⟨_, hx⟩ | ⟨h₁, hx⟩ | ⟨hp, hx⟩
  · rw [hx]
    exact ⟨rfl, rfl, .unchanged⟩
  · rcases rxMessage1_cases sm seed f n with ⟨hn, hx'⟩ | ⟨_, hx'⟩
    · rw [hx, hx']
      exact ⟨rfl, rfl, .message1 h₁ hn⟩
    · rw [hx, hx'] at h
      cases h
  have ht := acceptMessage3_takes sm seed f n
  rw [hx] at h ⊢
  generalize acceptMessage3 sm seed f n = r at h ht ⊢
  cases ht with
  | refused idx => exact ⟨rfl, rfl, .refused hp idx⟩
  | noRoom hk hn => exact ⟨rfl, rfl, .message3 hp hn hk⟩
  | answered => cases h

/-- A Message 3 whose group key is too long. -/
def longKeyM3 : Bytes :=
  message3 linkedSm 9 ([0xDD, 38, 0x00, 0x0F, 0xAC, 0x01, 1, 0] ++ List.replicate 32 0x22)

/-- It is authentic: the index of its key is kept, and the port stays open. -/
theorem rejected_frame_long_key :
    (wpa2SmRxEapol linkedSm 1 longKeyM3 256).resp = none ∧
      (wpa2SmRxEapol linkedSm 1 longKeyM3 256).sm.gtkIdx = 1 ∧
      (wpa2SmRxEapol linkedSm 1 longKeyM3 256).sm.portAuthorized = true ∧
      Leaves linkedSm 1 longKeyM3 256 (wpa2SmRxEapol linkedSm 1 longKeyM3 256).sm := by
  have hr : (wpa2SmRxEapol linkedSm 1 longKeyM3 256).resp = none ∧
      (wpa2SmRxEapol linkedSm 1 longKeyM3 256).sm.gtkIdx = 1 := by
    rw [longKeyM3, message3, (rx_signed (by decide +kernel) (by decide +kernel) ⟨rfl, rfl⟩).2.2]
    decide +kernel
  obtain ⟨-, hport, hleaves⟩ := rejected_frame hr.1
  exact ⟨hr.1, hr.2, hport, hleaves⟩

/-- An authentic Message 3 without a group key is rejected and moves the counter from 7 to 9. -/
theorem rejected_frame_counts :
    linkedSm.lastReplayCounter = 7 ∧ (wpa2SmRxEapol linkedSm 1 (message3 linkedSm 9 []) 256).resp = none ∧
      (wpa2SmRxEapol linkedSm 1 (message3 linkedSm 9 []) 256).sm.lastReplayCounter = 9 := by
  rw [message3, (rx_signed (by decide) (by decide) ⟨rfl, rfl⟩).2.2]
  decide

end

end Fortress.Wlan
