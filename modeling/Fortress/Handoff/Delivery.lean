/-
What a caller gets back. The log of a run holds what the calls show; each of
its entries is justified by the earlier ones: a reply that is collected was
given by the service for that very request, or is the one of a request that
was cancelled before the service took it; a slot is recycled only after its
request was answered, released and, if it holds references, cleaned; a token
is begun once and stays dead once its slot is recycled.

Collecting does not consume: a caller may collect its reply again until it
releases the request.
-/
import Fortress.Lib.History
import Fortress.Handoff.Edits

namespace Fortress.Handoff

open Function

/-- The request was answered, by the service or by its cancellation. -/
def Answered (log : List Entry) (t : Token) : Prop := ∃ r, .finished t r ∈ log ∨ .expired t r ∈ log

/-- The request is in the ledger. -/
def Open (log : List Entry) (t : Token) (req : Request) : Prop := .began t req ∈ log ∧ .recycled t ∉ log

/-- What each entry of a log rests on. -/
def Justified (log : List Entry) : Entry → Prop
  | .began t req => (∀ e ∈ log, e.token ≠ some t) ∧ req.actor ≠ 0 ∧ ∀ t' req', Open log t' req' → req'.actor ≠ req.actor
  | .claimed t req => Open log t req ∧ ¬ Answered log t
  | .finished t _ => (∃ req, Open log t req ∧ .claimed t req ∈ log) ∧ ¬ Answered log t
  | .expired t r => ∃ req, Open log t req ∧ r = Ledger.cancelReply req ∧ (∀ req', .claimed t req' ∉ log) ∧
      ¬ Answered log t ∧ (.released t ∈ log ∨ .cancelled t ∈ log ∨ .failed ∈ log)
  | .cancelled t => ∃ req, Open log t req
  | .failed => True
  | .released t => ∃ req, Open log t req
  | .cleaned t => (∃ req, Open log t req) ∧ Answered log t ∧ .released t ∈ log
  | .collected t r => (∃ req, Open log t req) ∧ (.finished t r ∈ log ∨ .expired t r ∈ log) ∧ .released t ∉ log
  | .recycled t => ∃ req, Open log t req ∧ Answered log t ∧ .released t ∈ log ∧ (req.retained = true → .cleaned t ∈ log)

/-! ## Consequences for a log -/

variable {log : List Entry} {t : Token}

/-- Entries that answer `t`. -/
def Entry.answers (t : Token) : Entry → Prop
  | .finished t' _ | .expired t' _ => t' = t
  | _ => False

instance (t : Token) : DecidablePred (Entry.answers t) := fun e => by
  cases e <;> unfold Entry.answers <;> infer_instance

theorem Answered.of_answers {e : Entry} (he : e ∈ log) (h : e.answers t) : Answered log t := by
  cases e <;> simp only [Entry.answers] at h
  · exact ⟨_, .inl (h ▸ he)⟩
  · exact ⟨_, .inr (h ▸ he)⟩

theorem answers_first (t : Token) (l : List Entry) (e : Entry) (hj : Justified l e) (ha : e.answers t) :
    ∀ x ∈ l, ¬ x.answers t := by
  intro x hx hxa
  have hans := Answered.of_answers hx hxa
  cases e <;> simp only [Entry.answers] at ha <;> subst ha
  · exact hj.2 hans
  obtain ⟨_, -, -, -, hn, -⟩ := hj
  exact hn hans

theorem answer_inj (h : History Justified log) {r r' : Reply} (hr : .finished t r ∈ log ∨ .expired t r ∈ log)
    (hr' : .finished t r' ∈ log ∨ .expired t r' ∈ log) : r = r' := by
  rcases hr with hr | hr <;> rcases hr' with hr' | hr' <;>
    simpa using h.unique (answers_first t) hr hr' rfl rfl

/-- What is answered was begun, and it is recycled only once it is released. -/
theorem open_of_answered (h : History Justified log) {r : Reply} (hr : .finished t r ∈ log ∨ .expired t r ∈ log)
    (hrel : .released t ∉ log) : ∃ req, Open log t req := by
  obtain ⟨req, hb⟩ : ∃ req, .began t req ∈ log := by
    rcases hr with hr | hr <;> obtain ⟨l, hl, hj⟩ := h.justified hr
    · obtain ⟨⟨req, hopen, -⟩, -⟩ := hj
      exact ⟨req, hl hopen.1⟩
    · obtain ⟨req, hopen, -⟩ := hj
      exact ⟨req, hl hopen.1⟩
  refine ⟨req, hb, fun hgone => ?_⟩
  obtain ⟨l, hl, _, -, -, hl', -⟩ := h.justified hgone
  exact hrel (hl hl')

theorem began_inj (h : History Justified log) {req req' : Request} (he : .began t req ∈ log)
    (he' : .began t req' ∈ log) : req = req' := by
  have := h.unique (p := fun e => ∃ r, e = .began t r) ?_ he he' ⟨_, rfl⟩ ⟨_, rfl⟩
  · simpa using this
  rintro l _ hj ⟨r, rfl⟩ x hx ⟨r', rfl⟩
  exact hj.1 _ hx rfl

/-! ## The slots and the log -/

/-- A live slot `s` and what the log says of its token. -/
structure Current (log : List Entry) (t : Token) (s : Slot) : Prop where
  began : .began t s.request ∈ log
  kept : .recycled t ∉ log
  unanswered : s.state ≠ .completed → ¬ Answered log t
  answered : s.state = .completed → .finished t s.reply ∈ log ∨ .expired t s.reply ∈ log
  claimed : s.state = .claimed ∨ s.state = .pending → .claimed t s.request ∈ log
  unclaimed : s.state = .prepared ∨ s.state = .queued → ∀ req, .claimed t req ∉ log
  caller : s.caller = false ↔ .released t ∈ log
  cleaned : s.cleaned = true → s.request.retained = true → .cleaned t ∈ log
  cancel : s.cancel = true → .released t ∈ log ∨ .cancelled t ∈ log ∨ .failed ∈ log

/-- Slot `i` and what the log says of its tokens, past and present. -/
structure Tracks (log : List Entry) (i : Nat) (s : Slot) : Prop where
  past : ∀ e ∈ log, ∀ g, e.token = some ⟨g, i⟩ → g ≠ 0 ∧ g ≤ s.generation ∧ (s.state = .free → g ≠ s.generation)
  gone : ∀ g req, .began ⟨g, i⟩ req ∈ log → (g = s.generation ∧ s.live = true) ∨ .recycled ⟨g, i⟩ ∈ log
  live : s.live = true → Current log ⟨s.generation, i⟩ s

/-- What edits keep about the log. -/
structure Delivers (v : View) (log : List Entry) : Prop where
  history : History Justified log
  bound : ∀ e ∈ log, ∀ t, e.token = some t → t.slot < HANDOFF_SLOTS
  tracks : ∀ i, i < HANDOFF_SLOTS → Tracks log i (v.slots i)
  actors : ∀ i j, i < HANDOFF_SLOTS → j < HANDOFF_SLOTS → (v.slots i).live = true → (v.slots j).live = true →
    (v.slots i).request.actor = (v.slots j).request.actor → i = j

attribute [local simp] Slot.released Slot.live

variable {s s' : Slot} {e : Entry} {i : Nat} {v v' : View}

/-- An entry about another token does not matter to this one. -/
theorem mem_cons_other {x : Entry} (hx : x.token = some t) (he : e.token ≠ some t) : x ∈ e :: log ↔ x ∈ log := by
  grind

theorem Answered.cons_iff : Answered (e :: log) t ↔ e.answers t ∨ Answered log t := by
  cases e <;> grind [Answered, Entry.answers]

/-- Logging an entry that does not claim, answer, release or recycle the request. -/
theorem Current.logged (h : Current log t s) (hclaim : ∀ req, e ≠ .claimed t req := by simp)
    (hans : ¬ e.answers t := by simp [Entry.answers]) (hrel : e ≠ .released t := by simp)
    (hrec : e ≠ .recycled t := by simp) : Current (e :: log) t s := by
  cases h
  constructor <;> grind -linarith [Answered.cons_iff]

theorem Current.cons_other (h : Current log t s) (he : e.token ≠ some t) : Current (e :: log) t s := by
  refine h.logged ?_ ?_ ?_ ?_ <;> cases e <;> grind [Entry.token, Entry.answers]

theorem Tracks.cons_other (h : Tracks log i s) (he : ∀ g, e.token ≠ some ⟨g, i⟩) : Tracks (e :: log) i s where
  past := by
    intro x hx g hg
    exact h.past x ((mem_cons_other hg (he g)).1 hx) g hg
  gone := by
    intro g req hb
    exact (h.gone g req ((mem_cons_other rfl (he g)).1 hb)).imp_right (.tail _)
  live := fun hl => (h.live hl).cons_other (he _)

/-- The request of a live slot is in the ledger. -/
theorem Current.open (h : Current log t s) : Open log t s.request := ⟨h.began, h.kept⟩

theorem Current.isAnswered (h : Current log t s) (hs : s.state = .completed) : Answered log t :=
  ⟨_, h.answered hs⟩

/-- A slot keeps its request, with nothing or an entry about its token logged. -/
theorem Tracks.keep {e : Option Entry} (h : Tracks log i s) (hl : s.live = true) (hg : s'.generation = s.generation)
    (hl' : s'.live = true) (he : ∀ x, e = some x → x.token = some ⟨s.generation, i⟩ ∧ ∀ t req, x ≠ .began t req)
    (hc : Current (e.toList ++ log) ⟨s.generation, i⟩ s') : Tracks (e.toList ++ log) i s' where
  past := by
    intro x hx g hxg
    have hown := h.past _ (h.live hl).began _ rfl
    have hold := h.past x
    grind [Option.mem_toList, Slot.live]
  gone := by
    intro g req hb
    rcases List.mem_append.1 hb with hb | hb
    · exact absurd rfl ((he _ (Option.mem_toList.1 hb)).2 _ _)
    rcases h.gone g req hb with ⟨hgg, -⟩ | hr
    · exact .inl ⟨by rw [hg, hgg], hl'⟩
    · exact .inr (List.mem_append_right _ hr)
  live := fun _ => by rw [hg]; exact hc

/-- One slot changes, and nothing or an entry about it is logged. -/
theorem Delivers.set {e : Option Entry} (h : Delivers v log) (hi : i < HANDOFF_SLOTS)
    (he : ∀ x, e = some x → Justified log x ∧ ∃ g, x.token = some ⟨g, i⟩) (ht : Tracks (e.toList ++ log) i s')
    (hactor : s'.live = true → ∀ j, j < HANDOFF_SLOTS → (v.slots j).live = true → j ≠ i →
      (v.slots j).request.actor ≠ s'.request.actor) : Delivers (v.set i s') (e.toList ++ log) where
  history := by
    cases e with
    | none => exact h.history
    | some x => exact h.history.cons (he x rfl).1
  bound := by
    intro x hx t hxt
    rcases List.mem_append.1 hx with hx | hx
    · obtain ⟨g, hg⟩ := (he x (Option.mem_toList.1 hx)).2
      rw [hg] at hxt
      cases hxt
      exact hi
    · exact h.bound x hx t hxt
  tracks := by
    intro j hj
    by_cases hij : j = i
    · subst hij
      simpa [View.set] using ht
    simp only [View.set, update_of_ne hij]
    cases e with
    | none => exact h.tracks j hj
    | some x =>
      refine (h.tracks j hj).cons_other ?_
      intro g hg
      obtain ⟨g', hg'⟩ := (he x rfl).2
      rw [hg'] at hg
      cases hg
      exact hij rfl
  actors := by
    intro a b ha hb
    have := h.actors a b ha hb
    grind

section Keep

variable (h : Delivers v log) (hi : i < HANDOFF_SLOTS) (hl : (v.slots i).live = true) (hl' : s'.live = true)
include h hi hl hl'

/-- A live slot keeps its request. -/
theorem Delivers.keep {e : Option Entry}
    (he : ∀ x, e = some x → x.token = some (v.token i) ∧ (∀ t req, x ≠ .began t req) ∧ Justified log x)
    (hc : Current (e.toList ++ log) (v.token i) s') (hg : s'.generation = (v.slots i).generation)
    (hr : s'.request = (v.slots i).request) : Delivers (v.set i s') (e.toList ++ log) := by
  refine h.set hi ?_ ?_ ?_
  · intro x hx
    obtain ⟨ht, -, hj⟩ := he x hx
    exact ⟨hj, _, ht⟩
  · refine (h.tracks i hi).keep hl hg hl' ?_ hc
    intro x hx
    obtain ⟨ht, hb, -⟩ := he x hx
    exact ⟨ht, hb⟩
  · intro _ j hj hlj hij heq
    rw [hr] at heq
    exact hij (h.actors j i hj hi hlj hl heq)

theorem Delivers.quiet (hc : Current log (v.token i) s') (hg : s'.generation = (v.slots i).generation := by rfl)
    (hr : s'.request = (v.slots i).request := by rfl) : Delivers (v.set i s') log :=
  h.keep (e := none) hi hl hl' (by simp) hc hg hr

theorem Delivers.logged (hj : Justified log e) (hc : Current (e :: log) (v.token i) s')
    (hg : s'.generation = (v.slots i).generation := by rfl) (hr : s'.request = (v.slots i).request := by rfl)
    (ht : e.token = some (v.token i) := by rfl) (hb : ∀ t req, e ≠ .began t req := by simp) :
    Delivers (v.set i s') (e :: log) := by
  refine h.keep (e := some e) hi hl hl' ?_ hc hg hr
  intro x hx
  cases hx
  exact ⟨ht, hb, hj⟩

end Keep

namespace Current

variable (h : Current log t s)

include h

theorem ticket (n : UInt64) : Current log t { s with ticket := n } :=
  { h with }

theorem queue (hs : s.state = .prepared) : Current log t { s with state := .queued } := by
  cases h
  constructor <;> grind -linarith

theorem claim (hs : s.state = .queued ∨ s.state = .pending) :
    Current (.claimed t s.request :: log) t { s with state := .claimed } := by
  cases h
  constructor <;> grind -linarith [Answered]

theorem pend (hs : s.state = .claimed) : Current log t { s with state := .pending } := by
  cases h
  constructor <;> grind -linarith

/-- The request is completed with the reply that is logged. -/
theorem answer (r : Reply) (he : e = .finished t r ∨ e = .expired t r) :
    Current (e :: log) t { s with reply := r, state := .completed } := by
  cases h
  constructor <;> grind -linarith

theorem setCancel (hlog : .released t ∈ log ∨ .cancelled t ∈ log ∨ .failed ∈ log) :
    Current log t { s with cancel := true } :=
  { h with cancel := fun _ => hlog }

theorem release : Current (.released t :: log) t s.released := by
  cases h
  constructor <;> grind -linarith [Answered, Slot.released]

theorem clean (hlog : .cleaned t ∈ log) : Current log t { s with cleaned := true } :=
  { h with cleaned := fun _ _ => hlog }

end Current

/-! ## One edit -/

theorem live_of_state {st : SlotState} (hs : s.state = st) (hst : st ≠ .free ∧ st ≠ .retired := by decide) :
    s.live = true := by
  simp [hs, hst]

/-- No entry is about the token a free slot gives out next. -/
theorem Tracks.fresh (h : Tracks log i s) (hs : s.state = .free) (req : Request) :
    ∀ x ∈ log, x.token ≠ some ⟨(s.fresh req).generation, i⟩ := by
  intro x hx hxt
  obtain ⟨hne, hle, hfree⟩ := h.past x hx _ hxt
  simp only [Slot.fresh] at hne hle hfree
  split at hle
  · rename_i hz
    rw [beq_iff_eq.1 hz] at hle
    cases hle
  · rename_i hz
    simp [hz] at hfree
    exact hfree hs

theorem Tracks.begin (h : Tracks log i s) (hs : s.state = .free) (req : Request) :
    Tracks (.began ⟨(s.fresh req).generation, i⟩ req :: log) i (s.fresh req) := by
  have hfresh := h.fresh hs req
  have hnot : ∀ x : Entry, x.token = some ⟨(s.fresh req).generation, i⟩ → x ∉ log := fun x hxt hx => hfresh x hx hxt
  have hle : s.generation ≤ (s.fresh req).generation := by
    simp only [Slot.fresh]
    split
    · rename_i hz
      rw [beq_iff_eq.1 hz]
      decide
    · exact UInt64.le_refl _
  have hlive : s.live = false := by simp [hs]
  refine ⟨?_, ?_, fun _ => ?_⟩
  · intro x hx g hxg
    rcases List.mem_cons.1 hx with rfl | hx
    · cases hxg
      refine ⟨?_, UInt64.le_refl _, by simp [Slot.fresh]⟩
      simp only [Slot.fresh]
      split
      · decide
      · rename_i h0
        simpa using h0
    · obtain ⟨hne, hg, -⟩ := h.past x hx g hxg
      exact ⟨hne, UInt64.le_trans hg hle, by simp [Slot.fresh]⟩
  · intro g req' hb
    rcases List.mem_cons.1 hb with hb | hb
    · cases hb
      exact .inl ⟨rfl, rfl⟩
    rcases h.gone g req' hb with ⟨-, hl⟩ | hr
    · rw [hlive] at hl
      cases hl
    · exact .inr (.tail _ hr)
  refine ⟨.head _, ?_, ?_, ?_, ?_, ?_, ?_, ?_, ?_⟩
  · simp [hnot (.recycled _) rfl]
  · rintro - ⟨r, hr⟩
    simp [hnot (.finished _ r) rfl, hnot (.expired _ r) rfl] at hr
  · simp [Slot.fresh]
  · simp [Slot.fresh]
  · intro _ req'
    simp [hnot (.claimed _ req') rfl]
  · have := hnot (.released _) rfl
    simpa [Slot.fresh] using this
  · intro hc hr
    simp only [Slot.fresh, Bool.not_eq_true'] at hc hr
    rw [hc] at hr
    cases hr
  · simp [Slot.fresh]

theorem Tracks.recycle (h : Tracks log i s) (hl : s.live = true) :
    Tracks (.recycled ⟨s.generation, i⟩ :: log) i s.recycled := by
  have hdead := Ledger.recycled_live s
  have hle : s.generation ≤ s.recycled.generation ∧
      (s.recycled.state = .free → s.generation < s.recycled.generation) := by
    unfold Slot.recycled
    split
    · exact ⟨UInt64.le_refl _, by simp⟩
    rename_i hmax
    have hlt := lt_succ_of_ne_max (by simpa using hmax)
    exact ⟨UInt64.le_of_lt hlt, fun _ => hlt⟩
  refine ⟨?_, ?_, ?_⟩
  · intro x hx g hxg
    have hpast : g ≠ 0 ∧ g ≤ s.generation := by
      rcases List.mem_cons.1 hx with rfl | hx
      · cases hxg
        obtain ⟨hne, hg, -⟩ := h.past _ (h.live hl).began _ rfl
        exact ⟨hne, hg⟩
      · obtain ⟨hne, hg, -⟩ := h.past x hx g hxg
        exact ⟨hne, hg⟩
    refine ⟨hpast.1, UInt64.le_trans hpast.2 hle.1, ?_⟩
    rintro hs rfl
    exact UInt64.not_lt.2 hpast.2 (hle.2 hs)
  · intro g req hb
    have hb : .began ⟨g, i⟩ req ∈ log := by simpa using hb
    rcases h.gone g req hb with ⟨rfl, -⟩ | hr
    · exact .inr (.head _)
    · exact .inr (.tail _ hr)
  · intro hl'
    rw [hdead] at hl'
    cases hl'

theorem Delivers.current (h : Delivers v log) (hi : i < HANDOFF_SLOTS) (hl : (v.slots i).live = true) :
    Current log (v.token i) (v.slots i) := (h.tracks i hi).live hl

/-- A request in the log that is not recycled is the one of its slot. -/
theorem Delivers.slot_of_open (h : Delivers v log) {req : Request} (ho : Open log t req) :
    t.slot < HANDOFF_SLOTS ∧ (v.slots t.slot).live = true ∧ (v.slots t.slot).request = req := by
  obtain ⟨hb, hr⟩ := ho
  have hi := h.bound _ hb t rfl
  refine ⟨hi, ?_⟩
  rcases (h.tracks _ hi).gone t.generation req hb with ⟨hg, hl⟩ | hrec
  · have hc := h.current hi hl
    rw [View.token, ← hg] at hc
    exact ⟨hl, began_inj h.history hc.began hb⟩
  · exact absurd hrec hr

/-- A failure cancels every request in progress. -/
theorem Delivers.fail (h : Delivers v log) :
    Delivers { v with slots := fun i => if i < HANDOFF_SLOTS then (v.slots i).failed else v.slots i }
      (.failed :: log) where
  history := h.history.cons trivial
  bound := by
    intro x hx t hxt
    rcases List.mem_cons.1 hx with rfl | hx
    · cases hxt
    · exact h.bound x hx t hxt
  tracks := by
    intro i hi
    have ht : Tracks (.failed :: log) i (v.slots i) := (h.tracks i hi).cons_other (by simp [Entry.token])
    simp only [hi, if_true, Slot.failed]
    split
    · exact ⟨ht.past, ht.gone, fun hl => (ht.live hl).setCancel (by simp)⟩
    · exact ht
  actors := by
    intro a b ha hb hla hlb hab
    have hlive : ∀ s : Slot, s.failed.live = s.live ∧ s.failed.request = s.request := by
      intro s
      unfold Slot.failed
      split <;> exact ⟨rfl, rfl⟩
    simp only [ha, hb, if_true, hlive] at hla hlb hab
    exact h.actors a b ha hb hla hlb hab

theorem Delivers.edit {e : Option Entry} (h : Delivers v log) (he : Edit v e v') : Delivers v' (e.toList ++ log) := by
  cases he with
  | @begin i req hi hfree hactor hone =>
    refine h.set hi ?_ ((h.tracks i hi).begin hfree req) ?_
    · intro x hx
      cases hx
      refine ⟨⟨(h.tracks i hi).fresh hfree req, hactor, ?_⟩, _, rfl⟩
      intro t' req' ho
      obtain ⟨hi', hl', hr'⟩ := h.slot_of_open ho
      exact hr' ▸ hone _ hi' hl'
    · intro _ j hj hl _
      exact hone j hj hl
  | @ticket i hi hp hz hn =>
    have hl := live_of_state hp
    have hset : Delivers (v.set i { v.slots i with ticket := v.nextTicket + 1 }) log :=
      h.quiet hi hl hl ((h.current hi hl).ticket _)
    exact { hset with }
  | @queue i hi hw hfirst =>
    simp only [Ledger.waiting, Bool.and_eq_true, beq_iff_eq] at hw
    have hp := hw.1.1.1
    have hl := live_of_state hp
    exact h.quiet hi hl rfl ((h.current hi hl).queue hp)
  | @claim i hi hc hfirst =>
    simp only [Slot.claimable, Bool.and_eq_true, beq_iff_eq] at hc
    have hl := live_of_state hc.1
    have hcur := h.current hi hl
    exact h.logged hi hl rfl ⟨hcur.open, hcur.unanswered (by simp [hc.1])⟩ (hcur.claim (.inl hc.1))
  | @resume i hi hs =>
    have hl := live_of_state hs
    have hcur := h.current hi hl
    exact h.logged hi hl rfl ⟨hcur.open, hcur.unanswered (by simp [hs])⟩ (hcur.claim (.inr hs))
  | @pend i hi hs =>
    have hl := live_of_state hs
    exact h.quiet hi hl rfl ((h.current hi hl).pend hs)
  | @finish i reply hi hs =>
    have hl := live_of_state hs
    have hcur := h.current hi hl
    have hj : Justified log (.finished (v.token i) reply) :=
      ⟨⟨_, hcur.open, hcur.claimed (.inl hs)⟩, hcur.unanswered (by simp [hs])⟩
    exact h.logged hi hl rfl hj (hcur.answer reply (.inl rfl))
  | @cancel i hi hl =>
    have hcur := h.current hi hl
    have hcur' : Current (.cancelled (v.token i) :: log) (v.token i) (v.slots i) :=
      hcur.logged
    exact h.logged hi hl hl ⟨_, hcur.open⟩ (hcur'.setCancel (by simp))
  | fail => exact h.fail
  | @release i hi hl =>
    have hcur := h.current hi hl
    exact h.logged hi hl hl ⟨_, hcur.open⟩ hcur.release
  | @collect i hi hs hc =>
    have hl := live_of_state hs
    have hcur := h.current hi hl
    have hcur' : Current (.collected (v.token i) (v.slots i).reply :: log) (v.token i) (v.slots i) :=
      hcur.logged
    have hj : Justified log (.collected (v.token i) (v.slots i).reply) := by
      refine ⟨⟨_, hcur.open⟩, hcur.answered hs, ?_⟩
      rw [← hcur.caller, hc]
      decide
    simpa [View.set] using h.logged hi hl hl hj hcur'
  | @expire i hi hx =>
    have hs := Ledger.expires_state hx
    have hl : (v.slots i).live = true := by rcases hs with hs | hs <;> simp [hs]
    have hcur := h.current hi hl
    have hopen : (v.slots i).state ≠ .completed := by rcases hs with hs | hs <;> simp [hs]
    simp only [Ledger.expires, Bool.and_eq_true] at hx
    have hj : Justified log (.expired (v.token i) (Ledger.cancelReply (v.slots i).request)) :=
      ⟨_, hcur.open, rfl, hcur.unclaimed hs, hcur.unanswered hopen, hcur.cancel hx.2⟩
    exact h.logged hi hl rfl hj (hcur.answer _ (.inr rfl))
  | @clean i hi hs hc =>
    have hl := live_of_state hs
    have hcur := h.current hi hl
    have hcur' : Current (.cleaned (v.token i) :: log) (v.token i) (v.slots i) :=
      hcur.logged
    exact h.logged hi hl hl ⟨⟨_, hcur.open⟩, hcur.isAnswered hs, hcur.caller.1 hc⟩
      (hcur'.clean (by simp))
  | @recycle i hi hs hc hcl =>
    have hl := live_of_state hs
    have hcur := h.current hi hl
    refine h.set hi ?_ ((h.tracks i hi).recycle hl) ?_
    · intro x hx
      cases hx
      exact ⟨⟨_, hcur.open, hcur.isAnswered hs, hcur.caller.1 hc, hcur.cleaned hcl⟩, _, rfl⟩
    · intro hl'
      rw [Ledger.recycled_live] at hl'
      cases hl'

/-! ## Runs -/

/-- A run and its log, newest entry first. -/
def runLog (calls : List Call) : System × List Entry :=
  calls.foldl (fun p c => (p.1.step c, p.1.observe c ++ p.2)) ({}, [])

theorem runLog_delivers (calls : List Call) : Delivers (runLog calls).1.ledger.view (runLog calls).2 := by
  refine List.foldlRecOn (motive := fun p : System × List Entry => Delivers p.1.ledger.view p.2) calls _
    ⟨.nil, by simp, ?_, ?_⟩ ?_
  · intro i _
    exact ⟨by simp, by simp, by simp [Ledger.view]⟩
  · intro i j _ _ hl
    simp [Ledger.view] at hl
  · intro p h c _
    exact Edits.invariant (fun _ _ _ _ h he => Delivers.edit h he) (p.1.step_edits c p.2) h

/-- A caller can collect exactly the reply it was given, until it releases the request. -/
theorem handoffCollect_iff {l : Ledger} (h : Delivers l.view log) (t : Token) (r : Reply) :
    l.handoffCollect t = (.ok, some r) ↔
      (.finished t r ∈ log ∨ .expired t r ∈ log) ∧ .released t ∉ log := by
  constructor
  · intro hc
    unfold Ledger.handoffCollect at hc
    split at hc
    next hm =>
      obtain ⟨hm, hcaller⟩ := Bool.and_eq_true_iff.1 hm
      obtain ⟨hi, hl, ht, -⟩ := Ledger.matches_token hm
      have hcur := h.current hi hl
      rw [ht] at hcur
      split at hc
      next hs =>
        obtain rfl := Option.some.inj (Prod.mk.inj hc).2
        refine ⟨hcur.answered (beq_iff_eq.1 hs), ?_⟩
        rw [← hcur.caller]
        exact fun hc => Bool.false_ne_true (hc.symm.trans hcaller)
      next => cases hc
    next => cases hc
  · rintro ⟨hr, hrel⟩
    obtain ⟨req, hb, hkept⟩ := open_of_answered h.history hr hrel
    have hi := h.bound _ hb t rfl
    obtain ⟨hg, hl⟩ := ((h.tracks _ hi).gone _ _ hb).resolve_right hkept
    have hcur := (h.tracks _ hi).live hl
    rw [← hg] at hcur
    have hs : (l.slots t.slot).state = .completed := by
      by_contra hs
      exact hcur.unanswered hs ⟨r, hr⟩
    have hcaller : (l.slots t.slot).caller = true := by
      rw [← Bool.not_eq_false]
      exact fun hc => hrel (hcur.caller.1 hc)
    have hm : l.matchesToken t = true := by
      have hz := ((h.tracks _ hi).past _ hb _ rfl).1
      simp only [Ledger.matchesToken, Bool.and_eq_true, decide_eq_true_eq, bne_iff_ne, beq_iff_eq]
      exact ⟨⟨⟨hi, hz⟩, hg.symm⟩, hl⟩
    rw [Ledger.handoffCollect, hm, hcaller, hs]
    exact congrArg (fun r => (Result.ok, some r)) (answer_inj h.history (hcur.answered hs) hr)

/-- **Delivery.** In the log of any sequence of calls by anyone, every entry is justified by the
earlier ones and no request is answered twice; a reply is there for its caller, and only it, until the
caller releases the request; a token whose slot was recycled does not match; and no two live requests
belong to one actor. -/
theorem handoff_delivery (calls : List Call) :
    let s := (runLog calls).1
    let log := (runLog calls).2
    History Justified log ∧
    (∀ t, log.countP (fun e => decide (e.answers t)) ≤ 1) ∧
    (∀ t r, s.ledger.handoffCollect t = (.ok, some r) ↔
      (.finished t r ∈ log ∨ .expired t r ∈ log) ∧ .released t ∉ log) ∧
    (∀ t, .recycled t ∈ log → s.ledger.matchesToken t = false) ∧
    (∀ i j, i < HANDOFF_SLOTS → j < HANDOFF_SLOTS → (s.ledger.slots i).live = true →
      (s.ledger.slots j).live = true → (s.ledger.slots i).request.actor = (s.ledger.slots j).request.actor → i = j) := by
  have h := runLog_delivers calls
  refine ⟨h.history, fun t => h.history.countP_le_one (answers_first t), handoffCollect_iff h, ?_, h.actors⟩
  intro t hr
  by_contra hm
  obtain ⟨hi, hl, ht, -⟩ := Ledger.matches_token (by simpa using hm)
  have hcur := h.current hi hl
  rw [ht] at hcur
  exact hcur.kept hr

/-- A caller that is answered may collect twice; and one that cancels may collect a reply that the
service did not give. -/
theorem handoff_collect_repeats :
    (∃ calls t r, (runLog calls).2.count (.collected t r) = 2) ∧
    (∃ calls t r, .collected t r ∈ (runLog calls).2 ∧ ∀ r', .finished t r' ∉ (runLog calls).2) := by
  refine ⟨⟨[.start, .begin 0 { actor := 7 }, .publish ⟨1, 0⟩, .claim, .finish ⟨1, 0⟩ {} false,
    .collect ⟨1, 0⟩, .collect ⟨1, 0⟩], ⟨1, 0⟩, {}, by decide +kernel⟩, ?_⟩
  refine ⟨[.start, .begin 0 { actor := 7 }, .cancel ⟨1, 0⟩, .acknowledge, .collect ⟨1, 0⟩], ⟨1, 0⟩, { status := -4 }, ?_⟩
  have hlog : (runLog [.start, .begin 0 { actor := 7 }, .cancel ⟨1, 0⟩, .acknowledge, .collect ⟨1, 0⟩]).2 =
      [.collected ⟨1, 0⟩ { status := -4 }, .expired ⟨1, 0⟩ { status := -4 }, .cancelled ⟨1, 0⟩,
        .began ⟨1, 0⟩ { actor := 7 }] := by decide +kernel
  rw [hlog]
  simp

/-- **No request is lost.** After any sequence of calls a request that was begun has been recycled or is in its
slot; and what is in a slot was begun and not recycled, is completed exactly when it was answered, and is without
its caller exactly when it was released. -/
theorem handoff_kept (calls : List Call) :
    let l := (runLog calls).1.ledger
    let log := (runLog calls).2
    (∀ t req, .began t req ∈ log → .recycled t ∈ log ∨
      (l.slots t.slot).live = true ∧ (l.slots t.slot).generation = t.generation ∧ (l.slots t.slot).request = req) ∧
    ∀ i, i < HANDOFF_SLOTS → (l.slots i).live = true →
      Open log ⟨(l.slots i).generation, i⟩ (l.slots i).request ∧
      ((l.slots i).state = .completed ↔ Answered log ⟨(l.slots i).generation, i⟩) ∧
      ((l.slots i).caller = false ↔ .released ⟨(l.slots i).generation, i⟩ ∈ log) := by
  have h := runLog_delivers calls
  refine ⟨fun t req hb => ?_, fun i hi hl => ?_⟩
  · have hi := h.bound _ hb t rfl
    rcases (h.tracks _ hi).gone _ _ hb with ⟨hg, hl⟩ | hr
    · have hcur := (h.tracks _ hi).live hl
      rw [← hg] at hcur
      exact .inr ⟨hl, hg.symm, began_inj h.history hcur.began hb⟩
    · exact .inl hr
  · have hcur := (h.tracks i hi).live hl
    refine ⟨⟨hcur.began, hcur.kept⟩, ⟨fun hs => ⟨_, hcur.answered hs⟩, fun ha => ?_⟩, hcur.caller⟩
    exact not_not.1 fun hs => hcur.unanswered hs ha

end Fortress.Handoff
