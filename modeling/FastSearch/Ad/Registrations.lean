import FastSearch.Lib.EventSystem
import FastSearch.Lib.Tickets
import FastSearch.Ad.RequestTransmitter

/-!
# No ad request is stranded or answered twice

Runs of one `RequestTransmitter`. A callback may be registered several times, and `cancelTransmit`
takes back one registration, the oldest one of its callback. Every registration is a ticket: it
waits in `mCallbacks` until it is told a result or taken back, and whoever waits, waits for a
load that is under way.
-/

namespace FastSearch.Ad

open EventSystem Tickets

universe u

/-- A registration was told a result, or taken back. -/
inductive Entry where
  | delivered (id : Nat)
  | cancelled (id : Nat)
  deriving DecidableEq, Repr

/-- The registration it is about. -/
def Entry.id : Entry → Nat
  | .delivered id | .cancelled id => id

/-- A transmitter and what happened to its registrations, in order. -/
structure AdRun (κ : Type u) where
  transmitter : RequestTransmitter κ
  log : List Entry := []
  deriving DecidableEq, Repr

namespace AdRun

variable {κ : Type u} [DecidableEq κ]

/-- The operations; changes of the limit and of the time are in what the operations read. -/
inductive Event (κ : Type u) where
  | transmit (callback : Option κ) (limited : Bool) (params : List Param) (now : Int)
  | cancelTransmit (callback : κ)
  | clearCache
  /-- The SDK answers the `i`-th request made to it. -/
  | answer (i : Nat) (now : Int) (result : RequestResult)
  deriving DecidableEq, Repr

/-- The transmitter moves on and has told some registrations. -/
def told (s : AdRun κ) (p : RequestTransmitter κ × List (Delivery κ)) : AdRun κ :=
  { transmitter := p.1, log := s.log ++ p.2.map fun d ↦ .delivered d.registration.id }

/-- One operation. -/
def step (s : AdRun κ) : Event κ → Option (AdRun κ)
  | .transmit callback limited params now =>
    some (s.told (s.transmitter.transmit callback limited params now))
  | .cancelTransmit callback => some {
      transmitter := s.transmitter.cancelTransmit callback
      log := s.log ++ (RequestTransmitter.oldest s.transmitter.mCallbacks callback).toList.map
        fun r ↦ .cancelled r.id }
  | .clearCache => some { s with transmitter := s.transmitter.clearCache }
  | .answer i now result => s.transmitter.loads[i]?.map fun load ↦
      s.told (s.transmitter.answer load now result)

/-- Nobody waits without a load, and a registration is told at most one result and none after
it was taken back. -/
structure Orderly (s : AdRun κ) : Prop where
  idle : s.transmitter.mIsLoading = false → s.transmitter.mCallbacks = []
  once : s.log.Pairwise fun a b ↦ ∀ id, b = .delivered id → a ≠ .delivered id ∧ a ≠ .cancelled id

/-- Every registration waits or is in the log, once. -/
structure Inv (s : AdRun κ) : Prop where
  idle : s.transmitter.mIsLoading = false → s.transmitter.mCallbacks = []
  tickets : Accounted (s.transmitter.mCallbacks.map (·.id)) (s.log.map (·.id))
    s.transmitter.registered

omit [DecidableEq κ] in
theorem Inv.orderly {s : AdRun κ} (h : s.Inv) : s.Orderly where
  idle := h.idle
  once := by
    have hn : (s.log.map (·.id)).Nodup := h.tickets.nodup_settled
    refine (List.pairwise_map.mp hn).imp ?_
    rintro a b hab id rfl
    constructor
    · rintro rfl
      exact hab rfl
    · rintro rfl
      exact hab rfl

omit [DecidableEq κ] in
/-- Registering issues a ticket. -/
private theorem accounted_register {t : RequestTransmitter κ} {d : List Nat}
    (h : Accounted (t.mCallbacks.map (·.id)) d t.registered) (callback : Option κ) :
    Accounted ((t.register callback).mCallbacks.map (·.id)) d
      (t.register callback).registered := by
  cases callback with
  | none => exact h
  | some c =>
    simp only [RequestTransmitter.register, List.map_append, List.map_singleton]
    exact h.issue

omit [DecidableEq κ] in
/-- Whatever an operation comes to, the tickets stay in order. -/
private theorem accounted_outcome {given : Option RequestResult} {t t' : RequestTransmitter κ}
    {told : List (Delivery κ)} {log : List Entry} (h : t.Outcome given t' told)
    (ha : Accounted (t.mCallbacks.map (·.id)) (log.map (·.id)) t.registered) :
    Accounted (t'.mCallbacks.map (·.id))
      ((log ++ told.map fun d ↦ Entry.delivered d.registration.id).map (·.id))
      t'.registered := by
  cases h with
  | waits callbacks nobody loading cache registered =>
    rw [callbacks, registered, nobody, List.map_nil, List.append_nil]
    exact ha
  | tells result callbacks all cache cached registered =>
    have hm : (told.map fun d ↦ Entry.delivered d.registration.id).map (·.id) =
        t.mCallbacks.map (·.id) := by
      rw [all, List.map_map, List.map_map]
      rfl
    rw [callbacks, registered, List.map_append, hm]
    exact ha.settleAll

/-- Erasing the first element that is found leaves all others. -/
private theorem perm_eraseP {α : Type u} {l : List α} {p : α → Bool} {r : α}
    (h : l.find? p = some r) : l.Perm (r :: l.eraseP p) := by
  induction l with
  | nil => cases h
  | cons a l ih =>
    by_cases ha : p a = true
    · rw [List.find?_cons_of_pos ha] at h
      cases h
      rw [List.eraseP_cons_of_pos ha]
    · rw [List.find?_cons_of_neg ha] at h
      rw [List.eraseP_cons_of_neg ha]
      exact ((ih h).cons a).trans (List.Perm.swap r a _)

/-- Taking back the oldest registration of a callback settles it. -/
private theorem accounted_cancel {t : RequestTransmitter κ} {log : List Entry} {callback : κ}
    (h : Accounted (t.mCallbacks.map (·.id)) (log.map (·.id)) t.registered) :
    Accounted ((t.cancelTransmit callback).mCallbacks.map (·.id))
      ((log ++ (RequestTransmitter.oldest t.mCallbacks callback).toList.map
        fun r ↦ Entry.cancelled r.id).map (·.id)) t.registered := by
  unfold RequestTransmitter.cancelTransmit RequestTransmitter.remove RequestTransmitter.oldest
  cases hf : t.mCallbacks.find? (fun r ↦ r.callback = callback) with
  | none =>
    have he : t.mCallbacks.eraseP (fun r ↦ r.callback = callback) = t.mCallbacks := by
      apply List.eraseP_of_forall_not
      exact fun r hr ↦ List.find?_eq_none.mp hf r hr
    simp only [he, Option.toList_none, List.map_nil, List.append_nil]
    exact h
  | some r =>
    have hp : (t.mCallbacks.map (·.id)).Perm
        (r.id :: (t.mCallbacks.eraseP (fun r ↦ r.callback = callback)).map (·.id)) :=
      (perm_eraseP hf).map (·.id)
    have hs := h.settle hp
    simpa [List.map_append, Entry.id] using hs

/-- Every operation keeps the invariant. -/
theorem inv_step {s t : AdRun κ} {e : Event κ} (h : s.Inv) (hs : s.step e = some t) :
    t.Inv := by
  cases e with
  | transmit callback limited params now =>
    cases hs
    obtain ⟨ho, hl⟩ := s.transmitter.outcome_transmit callback limited params now
    refine ⟨?_, accounted_outcome ho (accounted_register h.tickets callback)⟩
    intro hn
    rcases hl with hc | hl
    · exact hc
    · have hn : (s.transmitter.transmit callback limited params now).1.mIsLoading = false := hn
      rw [hl] at hn
      cases hn
  | cancelTransmit callback =>
    cases hs
    refine ⟨?_, accounted_cancel h.tickets⟩
    intro hn
    have hc : s.transmitter.mCallbacks = [] := h.idle hn
    simp [RequestTransmitter.cancelTransmit, RequestTransmitter.remove, hc]
  | clearCache =>
    cases hs
    exact ⟨h.idle, h.tickets⟩
  | answer i now result =>
    simp only [step, Option.map_eq_some_iff] at hs
    obtain ⟨load, _, rfl⟩ := hs
    have ho := s.transmitter.outcome_answer load now result
    refine ⟨?_, accounted_outcome ho h.tickets⟩
    intro hn
    cases ho with
    | waits callbacks nobody loading cache registered =>
      have hi : s.transmitter.mIsLoading = false := by
        cases hl : s.transmitter.mIsLoading with
        | false => rfl
        | true =>
          have hn : (s.transmitter.answer load now result).1.mIsLoading = false := hn
          rw [loading hl] at hn
          cases hn
      exact callbacks.trans (h.idle hi)
    | tells result callbacks all cache cached registered => exact callbacks

/-- In every run of a transmitter of any space, no registration is stranded and none is told
twice or after it was taken back. -/
theorem orderly_always (space : String) (es : List (Event κ)) :
    Always step Orderly ({ transmitter := { space := space } } : AdRun κ) es := by
  intro pre s _ hr
  have hi : s.Inv := by
    apply invariant_run (J := Inv) (fun _ _ _ h hs ↦ inv_step h hs) _ hr
    exact ⟨fun _ ↦ rfl, accounted_init⟩
  exact hi.orderly

end AdRun
end FastSearch.Ad
