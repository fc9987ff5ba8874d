import Hareflow.Task.Reschedulable

/-!
# Keeping a client

A producer and a consumer keep their client in the same way, with the same three tasks. The client
in `m_client` serves once `start()` is through. An unexpected shutdown of a client clears `m_client`
and schedules `reconnect_to_server`; a metadata update of the stream schedules `delayed_reconnect`,
which takes the client away and then schedules `reconnect_to_server`; and `reconnect_to_server`,
which returns early if there is a client, stores a new one, tries again later or, if the stream is
gone, schedules the task that stops the owner.

* `Reconnection` is the part of an owner that all this works on.
* `Reconnection.Step` lists what a step of an owner can do to it. Nothing is assumed of an owner that
  does not serve; a client is only put in service while none of its notifications is `Spent`.
* `Reconnection.Inv` is kept by these steps (`Inv.step`), and an owner that keeps it is never stuck
  with a client that is gone, or without one (`Inv.notStuck`).
-/

namespace Hareflow

/-- The part of a producer or of a consumer that keeps its client. -/
structure Reconnection where
  /-- The client, if there is one, is in service. -/
  serving : Prop
  /-- `m_client`. -/
  client : Option ℕ
  /-- `handle_shutdown` has returned for the client. -/
  ended : ℕ → Prop
  /-- The client has reported a metadata update of the stream. -/
  updated : ℕ → Prop
  reconnectTask : Task
  /-- `reconnect_to_server` is running. -/
  reconnecting : Prop
  delayedReconnectTask : Task
  /-- `delayed_reconnect` is before its critical section. -/
  checking : Prop
  /-- `delayed_reconnect` has taken the client. -/
  taken : Prop
  streamDeletedTask : Task
  /-- The stream-deleted task is in `internal_stop`, before it changes the status. -/
  stopping : Prop

namespace Reconnection

/-- `delayed_reconnect` will take the client: it is to come, or before its critical section. -/
def DelayedPending (k : Reconnection) : Prop := k.delayedReconnectTask.Scheduled ∨ k.checking

/-- `reconnect_to_server` is to come or running, or `delayed_reconnect` is about to schedule it. -/
def Reconnecting (k : Reconnection) : Prop :=
  k.reconnectTask.Scheduled ∨ k.reconnecting ∨ k.taken

/-- The owner is to be stopped because its stream does not exist. -/
def Deleting (k : Reconnection) : Prop := k.streamDeletedTask.Scheduled ∨ k.stopping

/-- A notification of the client is spent: `handle_shutdown` has returned, or a metadata update was
reported and no delayed reconnect is left to act on it. -/
def Spent (k : Reconnection) (c : ℕ) : Prop := k.ended c ∨ k.updated c ∧ ¬k.DelayedPending

/-- An owner in service has a client of which no notification has been acted on, or something that
will clear or replace its client. -/
def NotStuck (k : Reconnection) : Prop :=
  k.serving →
    (∃ c, k.client = some c ∧ ¬k.ended c ∧ ¬k.updated c) ∨ k.DelayedPending ∨ k.Deleting ∨
      k.client = none ∧ k.Reconnecting

/-- What a step of an owner can do. -/
inductive Step (k : Reconnection) : Reconnection → Prop
  | still : Step k k
  /-- The owner is not in service, now or any longer. -/
  | outOfService {serving : Prop} (h : ¬serving) (client : Option ℕ) (ended : ℕ → Prop) :
    Step k { k with serving := serving, client := client, ended := ended }
  /-- `start()` puts its client in service. -/
  | serve {serving : Prop} {c : ℕ} (hclient : k.client = some c) (hspent : ¬k.Spent c) :
    Step k { k with serving := serving }
  /-- A call of `handle_shutdown` moves towards its critical section. -/
  | approach (ended : ℕ → Prop) (h : ∀ c, ended c → k.ended c) : Step k { k with ended := ended }
  /-- The critical section of `handle_shutdown`. -/
  | lose (ended : ℕ → Prop) :
    Step k { k with
      ended := ended
      client := none
      reconnectTask := k.reconnectTask.scheduleNow }
  /-- `handle_metadata_update`. -/
  | update (updated : ℕ → Prop) :
    Step k { k with
      updated := updated
      delayedReconnectTask := k.delayedReconnectTask.scheduleNow }
  | tickReconnect {e : Tick} {u : Task} (hu : k.reconnectTask.tick e = some u) :
    Step k { k with reconnectTask := u }
  | tickDelayed {e : Tick} {u : Task} (hu : k.delayedReconnectTask.tick e = some u) :
    Step k { k with delayedReconnectTask := u }
  | tickDeleted {e : Tick} {u : Task} (hu : k.streamDeletedTask.tick e = some u) :
    Step k { k with streamDeletedTask := u }
  | reconnect {u : Task} {reconnecting : Prop} (hu : k.reconnectTask.enter = some u)
    (h : reconnecting) : Step k { k with reconnectTask := u, reconnecting := reconnecting }
  /-- `reconnect_to_server` goes on. -/
  | connect {reconnecting : Prop} (h : reconnecting) : Step k { k with reconnecting := reconnecting }
  /-- `reconnect_to_server` returns without a client: there is one, or the owner does not serve. -/
  | leave {reconnecting : Prop} (h : k.client ≠ none ∨ ¬k.serving) :
    Step k { k with reconnecting := reconnecting, reconnectTask := k.reconnectTask.returned }
  /-- `reconnect_to_server` stores a client. -/
  | install {reconnecting : Prop} {c : ℕ} (hspent : ¬k.Spent c) :
    Step k { k with
      client := some c
      reconnecting := reconnecting
      reconnectTask := k.reconnectTask.returned }
  /-- `reconnect_to_server` fails because the stream does not exist. -/
  | abandon {reconnecting : Prop} :
    Step k { k with
      reconnecting := reconnecting
      reconnectTask := k.reconnectTask.returned
      streamDeletedTask := k.streamDeletedTask.scheduleNow }
  /-- `reconnect_to_server` fails for another reason. -/
  | retry {reconnecting : Prop} :
    Step k { k with
      reconnecting := reconnecting
      reconnectTask := k.reconnectTask.scheduleAfter.returned }
  | delayed {u : Task} {checking taken : Prop} (hu : k.delayedReconnectTask.enter = some u)
    (hidle : ¬k.taken) (h : checking) :
    Step k { k with delayedReconnectTask := u, checking := checking, taken := taken }
  /-- The critical section of `delayed_reconnect`. -/
  | take {checking taken : Prop} (h : taken) :
    Step k { k with client := none, checking := checking, taken := taken }
  /-- `delayed_reconnect` returns early. -/
  | leaveDelayed {checking taken : Prop} (h : ¬k.serving) :
    Step k { k with
      checking := checking
      taken := taken
      delayedReconnectTask := k.delayedReconnectTask.returned }
  | endDelayed {checking taken : Prop} (h : ¬k.checking) :
    Step k { k with
      checking := checking
      taken := taken
      delayedReconnectTask := k.delayedReconnectTask.returned
      reconnectTask := k.reconnectTask.scheduleAfter }
  /-- The stream-deleted task enters `internal_stop`. -/
  | deleted {u : Task} {stopping : Prop} (hu : k.streamDeletedTask.enter = some u) (h : stopping) :
    Step k { k with streamDeletedTask := u, stopping := stopping }

/-- The tasks are alive; the client in service has no notification that is spent; and without a
client there is something left that gets one, or that stops the owner. -/
structure Inv (k : Reconnection) : Prop where
  reconnectAlive : k.reconnectTask.Alive
  delayedAlive : k.delayedReconnectTask.Alive
  deletedAlive : k.streamDeletedTask.Alive
  unspent : k.serving → ∀ c, k.client = some c → ¬k.Spent c
  recovering : k.serving → k.client = none → k.Reconnecting ∨ k.Deleting

variable {k k' : Reconnection}

theorem Inv.step (h : k.Inv) (hstep : k.Step k') : k'.Inv := by
  -- the client in service stays, and so does a delayed reconnect that is to take it
  have hkept {updated : ℕ → Prop} {pending : Prop} (hup : (∀ c, updated c → k.updated c) ∨ pending)
      (hd : k.DelayedPending → pending) (hserv : k.serving) (c : ℕ) (hc : k.client = some c) :
      ¬(k.ended c ∨ updated c ∧ ¬pending) := by
    rintro (hended | ⟨hu, hn⟩)
    · exact h.unspent hserv c hc (.inl hended)
    · exact h.unspent hserv c hc (.inr ⟨(hup.resolve_right hn) c hu, fun hp => hn (hd hp)⟩)
  cases hstep with
  | still => exact h
  | outOfService hout =>
    exact { h with unspent := fun hs => absurd hs hout, recovering := fun hs => absurd hs hout }
  | serve hclient hspent =>
    refine { h with unspent := fun _ c hc => ?_, recovering := fun _ hn => ?_ }
    · obtain rfl := Option.some.inj (hclient.symm.trans hc)
      exact hspent
    · cases hclient.symm.trans hn
  | approach ended hended =>
    exact { h with unspent := fun hs c hc hsp => h.unspent hs c hc (hsp.imp_left (hended c)) }
  | lose =>
    exact { h with
      reconnectAlive := h.reconnectAlive.scheduleNow
      unspent := fun _ _ hc => by cases hc
      recovering := fun _ _ => .inl (.inl h.reconnectAlive.scheduled_scheduleNow) }
  | update =>
    have hpending := h.delayedAlive.scheduled_scheduleNow
    exact { h with
      delayedAlive := h.delayedAlive.scheduleNow
      unspent := hkept (.inr (.inl hpending)) fun _ => .inl hpending }
  | tickReconnect hu =>
    refine { h with reconnectAlive := h.reconnectAlive.tick hu, recovering := fun hs hn => ?_ }
    exact (h.recovering hs hn).imp_left fun hr => hr.imp_left fun hsch => hsch.tick h.reconnectAlive hu
  | tickDelayed hu =>
    exact { h with
      delayedAlive := h.delayedAlive.tick hu
      unspent := hkept (.inl fun _ => id) fun hd => hd.imp_left fun hsch => hsch.tick h.delayedAlive hu }
  | tickDeleted hu =>
    refine { h with deletedAlive := h.deletedAlive.tick hu, recovering := fun hs hn => ?_ }
    exact (h.recovering hs hn).imp_right fun hr => hr.imp_left fun hsch => hsch.tick h.deletedAlive hu
  | reconnect hu hr =>
    exact { h with
      reconnectAlive := h.reconnectAlive.enter hu
      recovering := fun _ _ => .inl (.inr (.inl hr)) }
  | connect hr => exact { h with recovering := fun _ _ => .inl (.inr (.inl hr)) }
  | leave hearly =>
    refine { h with reconnectAlive := h.reconnectAlive.returned, recovering := fun hs hn => ?_ }
    exact (hearly.elim (fun hc => hc hn) fun hout => hout hs).elim
  | install hspent =>
    refine { h with
      reconnectAlive := h.reconnectAlive.returned
      unspent := fun _ c hc => ?_
      recovering := fun _ hn => by cases hn }
    obtain rfl := Option.some.inj hc
    exact hspent
  | abandon =>
    exact { h with
      reconnectAlive := h.reconnectAlive.returned
      deletedAlive := h.deletedAlive.scheduleNow
      recovering := fun _ _ => .inr (.inl h.deletedAlive.scheduled_scheduleNow) }
  | retry =>
    exact { h with
      reconnectAlive := h.reconnectAlive.scheduleAfter.returned
      recovering := fun _ _ => .inl (.inl h.reconnectAlive.scheduled_scheduleAfter.returned) }
  | delayed hu hidle hchecking =>
    refine { h with
      delayedAlive := h.delayedAlive.enter hu
      unspent := hkept (.inl fun _ => id) fun _ => .inr hchecking
      recovering := fun hs hn => (h.recovering hs hn).imp_left ?_ }
    rintro (hr | hr | hr)
    · exact .inl hr
    · exact .inr (.inl hr)
    · exact absurd hr hidle
  | take htaken =>
    exact { h with
      unspent := fun _ _ hc => by cases hc
      recovering := fun _ _ => .inl (.inr (.inr htaken)) }
  | leaveDelayed hout =>
    exact { h with
      delayedAlive := h.delayedAlive.returned
      unspent := fun hs => absurd hs hout
      recovering := fun hs => absurd hs hout }
  | endDelayed hchecking =>
    refine { h with
      reconnectAlive := h.reconnectAlive.scheduleAfter
      delayedAlive := h.delayedAlive.returned
      unspent := hkept (.inl fun _ => id) fun hd => ?_
      recovering := fun _ _ => .inl (.inl h.reconnectAlive.scheduled_scheduleAfter) }
    exact .inl (hd.resolve_right hchecking).returned
  | deleted hu hstopping =>
    exact { h with
      deletedAlive := h.deletedAlive.enter hu
      recovering := fun _ _ => .inr (.inr hstopping) }

theorem Inv.notStuck (h : k.Inv) : k.NotStuck := by
  intro hs
  cases hc : k.client with
  | none =>
    rcases h.recovering hs hc with hr | hd
    · exact .inr (.inr (.inr ⟨rfl, hr⟩))
    · exact .inr (.inr (.inl hd))
  | some c =>
    have hspent := h.unspent hs c hc
    by_cases hpending : k.DelayedPending
    · exact .inr (.inl hpending)
    · exact .inl ⟨c, rfl, fun he => hspent (.inl he), fun hu => hspent (.inr ⟨hu, hpending⟩)⟩

end Reconnection

end Hareflow
