import Hareflow.Client.FrameThread
import Hareflow.Client.Handshake
import Hareflow.Client.Heartbeat

/-!
# The parties of a client

The status and the frame thread of a client occur in four machines. That of `Lifecycle` has all the
parties that move the status, and of the handshake and of the frames only what the status depends on.
The others look at some of these parties more closely: that of `Handshake` at `start()`, the frame
thread and the server, that of `Heartbeat` at the strand, the frame thread and the owner of a client
that has been started, and that of `Frames` at the bytes that the frame thread gets.

What they do is what the first one allows its parties:

* `Handshake.reachable_of_run`: wherever `start()` is after a run with a server, it can be there in a
  life of the client, with the frame thread in its loop.
* `Heartbeat.reachable_of_run`: the status and the frame thread of a client in service are those of
  some life of the client.
* `Frames.leads_of_step`: with any bytes from the server, the frame thread stays in its loop, or leaves
  it for a reason for which it can be left, or terminates the process.
-/

namespace Hareflow.Client

open Foundations
open Lifecycle (canLeave)

/-! ## The handshake -/

namespace Handshake

open Wire
open Lifecycle (Handshake)

/-- Where the life of the client has its `start()`. -/
def Starter.startPc (c : Starter) : Lifecycle.StartPc :=
  match c.pc with
  | .sending h => .awaiting h
  | .waiting .tune => if c.tuned then .answered .tune else .awaiting .tune
  | .waiting h => if c.result.isSome then .answered h else .awaiting h
  | .ready => .ready
  | .returned => .returned
  | .threw _ => .catching

/-- A response that gives the properties of a server. -/
def Gives (v : Server) (body : ResponseBody) : Prop :=
  ∀ code properties, body = .peerProperties code properties → properties = v.properties

/-- `start()` and its requests: there is an outstanding one only while `start()` waits for its
response, and the properties of the server are known after the first. -/
structure Starter.Orderly (v : Server) (c : Starter) : Prop where
  outstanding : c.outstanding ≠ none → ∃ h ≠ .tune, c.pc = .waiting h ∧ c.result = none
  sending : ∀ h, c.pc = .sending h → c.result = none
  gives : ∀ body, c.result = some body → Gives v body
  known : ∀ h ≠ Handshake.peerProperties, c.pc = .sending h ∨ c.pc = .waiting h →
    c.serverProperties = v.properties

namespace Starter

/-- What a step can do to `start()` and to what it waits for. -/
inductive Change (v : Server) (c : Starter) : Starter → Prop
  | still : Change v c c
  /-- The answer to a tune frame is refused. -/
  | limit (maxFrameSize heartbeat : UInt32) :
    Change v c { c with maxFrameSize := maxFrameSize, heartbeat := heartbeat }
  | tune (maxFrameSize heartbeat : UInt32) (idleHandler escaped : Bool) :
    Change v c { c with
      maxFrameSize := maxFrameSize
      heartbeat := heartbeat
      idleHandler := idleHandler
      tuned := true
      escaped := escaped }
  /-- The response to the outstanding request. -/
  | respond {body : ResponseBody} (hout : c.outstanding ≠ none) (hbody : Gives v body) :
    Change v c { c with outstanding := none, result := some body }
  | send {h : Handshake} {id : UInt32} (hpc : c.pc = .sending h) (hh : h ≠ .tune) :
    Change v c { c with pc := .waiting h, correlationSequence := id, outstanding := some id }
  /-- `start()` has what it has waited for. -/
  | proceed {h : Handshake} {properties connectionProperties : StringMap}
    (hpc : c.pc = .waiting h) (hanswered : c.startPc = .answered h)
    (hproperties : properties = v.properties ∨
      h ≠ .peerProperties ∧ properties = c.serverProperties) :
    Change v c (Starter.proceed { c with
      serverProperties := properties
      connectionProperties := connectionProperties } h)
  | throw {h : Handshake} {id : UInt32} {e : Exception}
    (hpc : c.pc = .sending h ∨ c.pc = .waiting h) :
    Change v c (Starter.throw { c with correlationSequence := id } e)
  | finish (hpc : c.pc = .ready) : Change v c { c with pc := .returned }

variable {v : Server} {c c' : Starter}

theorem startPc_waiting {h : Handshake} (hpc : c.pc = .waiting h) (hh : h ≠ .tune) :
    c.startPc = if c.result.isSome then .answered h else .awaiting h := by
  unfold startPc
  rw [hpc]
  cases h <;> first | rfl | exact absurd rfl hh

theorem startPc_tuning (hpc : c.pc = .waiting .tune) :
    c.startPc = if c.tuned then .answered .tune else .awaiting .tune := by
  unfold startPc
  rw [hpc]

/-- `start()` does not go on with a request outstanding. -/
theorem Orderly.outstanding_eq_none (h : c.Orderly v) {k : Handshake}
    (hanswered : c.startPc = .answered k) : c.outstanding = none := by
  by_contra hout
  obtain ⟨k', hk', hpc, hresult⟩ := h.outstanding hout
  rw [startPc_waiting hpc hk', hresult] at hanswered
  cases hanswered

theorem Orderly.change (h : c.Orderly v) (hc : Change v c c') : c'.Orderly v := by
  cases hc with
  | still => exact h
  | limit | tune => exact ⟨h.outstanding, h.sending, h.gives, h.known⟩
  | respond hout hbody =>
    obtain ⟨k, -, hpc, -⟩ := h.outstanding hout
    refine { h with outstanding := nofun, sending := fun k' hk' => ?_, gives := fun body hresult => ?_ }
    · cases hpc.symm.trans hk'
    · obtain rfl := Option.some.inj hresult
      exact hbody
  | @send k id hpc hk =>
    refine { h with
      outstanding := fun _ => ⟨k, hk, rfl, h.sending k hpc⟩
      sending := nofun
      known := fun k' hne hk' => ?_ }
    obtain hk' | hk' := hk'
    · cases hk'
    · obtain rfl := StartPc.waiting.inj hk'
      exact h.known k hne (.inl hpc)
  | @proceed k properties connectionProperties hpc hanswered hproperties =>
    refine ⟨fun hout => absurd (h.outstanding_eq_none hanswered) hout, fun _ _ => rfl, nofun,
      fun _ _ _ => ?_⟩
    obtain rfl | ⟨hne, rfl⟩ := hproperties
    · rfl
    · exact h.known k hne (.inr hpc)
  | throw =>
    refine ⟨nofun, nofun, nofun, fun _ _ hk => ?_⟩
    rcases hk with hk | hk <;> cases hk
  | finish hpc =>
    refine ⟨fun hout => ?_, nofun, h.gives, fun _ _ hk => ?_⟩
    · obtain ⟨k, -, hwaiting, -⟩ := h.outstanding hout
      cases hpc.symm.trans hwaiting
    · rcases hk with hk | hk <;> cases hk

theorem change_handle {f : ServerFrame} (hf : ∀ key id body, f = .response key id body → Gives v body) :
    Change v c (c.handle f).1 := by
  cases f with
  | response key id body =>
    simp only [handle]
    split
    · rename_i hout
      exact .respond (by simp [hout]) (hf key id body rfl)
    · exact .still
  | tune command =>
    simp only [handle, handleTune]
    split
    · exact .limit _ _
    · exact .tune _ _ _ _
  | _ => exact .still

/-- The response of a request: `start()` goes on, or throws. -/
theorem answer_cases (c : Starter) (h : Handshake) (body : ResponseBody) :
    (∃ e, c.answer h body = c.throw e) ∨
      ∃ properties connectionProperties, c.answer h body = Starter.proceed { c with
          serverProperties := properties
          connectionProperties := connectionProperties } h ∧
        ((∃ code, body = .peerProperties code properties) ∨
          h ≠ .peerProperties ∧ properties = c.serverProperties) := by
  have hcheck (code : ResponseCode) (go : Starter) :
      (∃ e, c.check code go = c.throw e) ∨ c.check code go = go := by
    rw [check]
    split
    · exact .inl ⟨_, rfl⟩
    · exact .inr rfl
  have hrefused (h' : Handshake) (body' : ResponseBody)
      (heq : c.answer h' body' =
        c.throw (.stream (.stream "Unexpected type for response object"))) :
      ∃ e, c.answer h' body' = c.throw e := ⟨_, heq⟩
  cases h <;> cases body <;> first | exact .inl (hrefused _ _ rfl) | skip
  case peerProperties.peerProperties code properties =>
    refine (hcheck code _).imp_right fun heq => ?_
    exact ⟨properties, c.connectionProperties, heq, .inl ⟨code, rfl⟩⟩
  case saslHandshake.saslHandshake code mechanisms =>
    obtain hthrow | hgo := hcheck code (if plain ∈ mechanisms then c.proceed .saslHandshake
      else c.throw (.stream (.stream "Server does not support PLAIN authentication")))
    · exact .inl hthrow
    · by_cases hplain : plain ∈ mechanisms
      · exact .inr ⟨c.serverProperties, c.connectionProperties, hgo.trans (if_pos hplain),
          .inr ⟨by simp, rfl⟩⟩
      · exact .inl ⟨_, hgo.trans (if_neg hplain)⟩
  case saslAuthenticate.saslAuthenticate code data =>
    refine (hcheck code _).imp_right fun heq => ?_
    exact ⟨c.serverProperties, c.connectionProperties, heq, .inr ⟨by simp, rfl⟩⟩
  case open.open code properties =>
    refine (hcheck code _).imp_right fun heq => ?_
    exact ⟨c.serverProperties, properties, heq, .inr ⟨by simp, rfl⟩⟩
  case exchangeCommandVersions.exchangeCommandVersions code versions =>
    exact .inr ⟨c.serverProperties, c.connectionProperties, rfl, .inr ⟨by simp, rfl⟩⟩

theorem change_start {p : Parameters} {r : Starter × List ClientFrame} (h : c.Orderly v)
    (hstep : c.start p = some r) : Change v c r.1 := by
  unfold start at hstep
  split at hstep
  · rename_i k hpc
    obtain ⟨frame, hframe, rfl⟩ := Option.map_eq_some_iff.1 hstep
    have hk : k ≠ .tune := by
      rintro rfl
      cases hframe
    split
    · exact .throw (.inl hpc)
    · exact .send hpc hk
  · rename_i hpc
    obtain ⟨htuned, hstep⟩ := Option.ite_none_right_eq_some.1 hstep
    obtain rfl := Option.some.inj hstep
    have hanswered : c.startPc = .answered .tune := by rw [startPc_tuning hpc, if_pos htuned]
    exact .proceed hpc hanswered (.inr ⟨nofun, rfl⟩)
  · rename_i k htune hpc
    obtain ⟨body, hbody, rfl⟩ := Option.map_eq_some_iff.1 hstep
    have hanswered : c.startPc = .answered k := by
      rw [startPc_waiting hpc fun hk => htune hk, hbody]
      rfl
    obtain ⟨e, heq⟩ | ⟨properties, connectionProperties, heq, hproperties⟩ := c.answer_cases k body
    · show Change v c (c.answer k body)
      rw [heq]
      exact .throw (.inr hpc)
    · show Change v c (c.answer k body)
      rw [heq]
      refine .proceed hpc hanswered (hproperties.imp_left ?_)
      rintro ⟨code, rfl⟩
      exact h.gives _ hbody code properties rfl
  · rename_i hpc
    obtain rfl := Option.some.inj hstep
    exact .finish hpc
  · cases hstep
  · cases hstep

theorem change_timeout (h : c.timeout = some c') : Change v c c' := by
  unfold timeout at h
  split at h
  · rename_i hpc
    split at h <;> cases h
    exact .throw (.inr hpc)
  · rename_i k _ hpc
    split at h <;> cases h
    exact .throw (.inr hpc)
  · cases h

theorem change_disconnect {e : Connection.IOException} (h : c.disconnect e = some c') :
    Change v c c' := by
  unfold disconnect at h
  split at h
  · rename_i k hpc
    cases h
    exact .throw (.inl hpc)
  · cases h
  · rename_i k _ hpc
    split at h <;> cases h
    exact .throw (.inr hpc)
  · cases h

/-- The status of a client in `start()`. -/
def status (c : Starter) : Lifecycle.Status := if c.pc = .returned then .started else .starting

/-- The life of the client goes along with `start()`. -/
def live (c : Starter) (l : Lifecycle.State) : Lifecycle.State :=
  { l with start := c.startPc, status := c.status }

theorem live_eq {l : Lifecycle.State} (hstart : l.start = c.startPc) (hstatus : l.status = c.status) :
    c.live l = l := by
  unfold live
  rw [← hstart, ← hstatus]

theorem startPc_proceed (h : Handshake) :
    (c.proceed h).startPc =
      match h.next (Versions.supportsCommandVersionsExchange c.serverProperties) with
      | none => .ready
      | some .tune => if c.tuned then .answered .tune else .awaiting .tune
      | some h => .awaiting h := by
  cases h with
  | «open» =>
    simp only [proceed, Handshake.next, startPc]
    cases Versions.supportsCommandVersionsExchange c.serverProperties <;> rfl
  | _ => rfl

theorem status_proceed (h : Handshake) : (c.proceed h).status = .starting := by
  unfold proceed
  cases h.next (Versions.supportsCommandVersionsExchange c.serverProperties) with
  | none => rfl
  | some h => cases h <;> rfl

end Starter

section Lives

variable {v : Server} {c c' : Starter} {l : Lifecycle.State}

/-- `start()` goes on with an answer; the tune frame may have come before it is waited for. -/
theorem leads_proceed {h : Handshake} (hstart : l.start = .answered h) (hstatus : l.status = .starting)
    (hframe : l.frame = .looping) (hknown : h = .open → c.serverProperties = v.properties) :
    (Lifecycle.machine (exchanges v)).Leads l ((c.proceed h).live l) := by
  have hlive : (c.proceed h).live l = { l with start := (c.proceed h).startPc } := by
    unfold Starter.live
    rw [Starter.status_proceed, ← hstatus]
  rw [hlive, Starter.startPc_proceed]
  cases h with
  | saslAuthenticate =>
    cases htuned : c.tuned with
    | false =>
      exact ⟨[.proceed], by
        simp [Machine.run, Lifecycle.machine, Lifecycle.step, hstart, Handshake.next]⟩
    | true =>
      exact ⟨[.proceed, .answer], by
        simp [Machine.run, Lifecycle.machine, Lifecycle.step, hstart, hframe, hstatus, Handshake.next]⟩
  | «open» =>
    rw [hknown rfl]
    refine Machine.Leads.step (a := .proceed) ?_
    simp only [Lifecycle.machine, Lifecycle.step, hstart, Handshake.next, exchanges]
    cases Versions.supportsCommandVersionsExchange v.properties <;> rfl
  | _ =>
    exact ⟨[.proceed], by
      simp [Machine.run, Lifecycle.machine, Lifecycle.step, hstart, Handshake.next]⟩

/-- The frame thread has what `start()` waits for. -/
theorem leads_answer {h : Handshake} (hstart : l.start = .awaiting h) (hstatus : l.status = c.status)
    (hstarting : c.status = .starting) (hframe : l.frame = .looping) (hpc : c'.startPc = .answered h)
    (hst : c'.status = c.status) : (Lifecycle.machine (exchanges v)).Leads l (c'.live l) := by
  refine Machine.Leads.step (a := .answer) ?_
  simp [Lifecycle.machine, Lifecycle.step, hstart, hframe, Starter.live, hpc, hst, hstatus, hstarting]

theorem leads_change (ho : c.Orderly v) (hstart : l.start = c.startPc) (hstatus : l.status = c.status)
    (hframe : l.frame = .looping) (hc : c.Change v c') :
    (Lifecycle.machine (exchanges v)).Leads l (c'.live l) := by
  have hsame (hpc : c'.startPc = c.startPc) (hst : c'.status = c.status) :
      (Lifecycle.machine (exchanges v)).Leads l (c'.live l) := by
    rw [Starter.live_eq (hstart.trans hpc.symm) (hstatus.trans hst.symm)]
    exact Machine.Leads.refl l
  have hwaiting {k : Handshake} (hpc : c.pc = .waiting k) : c.status = .starting := by
    simp [Starter.status, hpc]
  cases hc with
  | still => exact hsame rfl rfl
  | limit => exact hsame rfl rfl
  | tune =>
    by_cases hpc : c.pc = .waiting .tune
    · cases htuned : c.tuned with
      | true => exact hsame (by simp [Starter.startPc, hpc, htuned]) rfl
      | false =>
        rw [Starter.startPc_tuning hpc, htuned] at hstart
        exact leads_answer hstart hstatus (hwaiting hpc) hframe (by simp [Starter.startPc, hpc]) rfl
    · refine hsame ?_ rfl
      unfold Starter.startPc
      cases hc : c.pc with
      | waiting k => cases k <;> first | rfl | exact absurd hc hpc
      | _ => rfl
  | respond hout hbody =>
    obtain ⟨k, hk, hpc, hresult⟩ := ho.outstanding hout
    rw [Starter.startPc_waiting hpc hk, hresult] at hstart
    exact leads_answer hstart hstatus (hwaiting hpc) hframe (Starter.startPc_waiting hpc hk) rfl
  | @send k id hpc hk =>
    refine hsame ?_ (by simp [Starter.status, hpc])
    rw [Starter.startPc_waiting rfl hk, ho.sending k hpc]
    simp [Starter.startPc, hpc]
  | @proceed k properties connectionProperties hpc hanswered hproperties =>
    refine leads_proceed (hstart.trans hanswered) (hstatus.trans (hwaiting hpc)) hframe fun hk => ?_
    obtain rfl | ⟨hne, rfl⟩ := hproperties
    · rfl
    · exact ho.known k hne (.inr hpc)
  | @throw k id e hpc =>
    have hstarting : c.status = .starting := by
      obtain hpc | hpc := hpc <;> simp [Starter.status, hpc]
    have hpending : l.start = .awaiting k ∨ l.start = .answered k := by
      rw [hstart]
      obtain hpc | hpc := hpc
      · exact .inl (by simp [Starter.startPc, hpc])
      · by_cases hk : k = .tune
        · subst hk
          rw [Starter.startPc_tuning hpc]
          cases c.tuned <;> simp
        · rw [Starter.startPc_waiting hpc hk]
          cases c.result <;> simp
    have hlive : Starter.live (Starter.throw { c with correlationSequence := id } e) l =
        { l with start := .catching } := by
      rw [hstarting] at hstatus
      simp [Starter.live, Starter.throw, Starter.startPc, Starter.status, hstatus]
    rw [hlive]
    refine Machine.Leads.step (a := .startFail) ?_
    obtain hl | hl := hpending <;> simp [Lifecycle.machine, Lifecycle.step, hl]
  | finish hpc =>
    have hready : l.start = .ready := hstart.trans (by simp [Starter.startPc, hpc])
    have hstarting : l.status = .starting := hstatus.trans (by simp [Starter.status, hpc])
    refine Machine.Leads.step (a := .startExchange) ?_
    simp [Lifecycle.machine, Lifecycle.step, hready, hstarting, Starter.live, Starter.startPc,
      Starter.status]

end Lives

/-- A run with a server and a life of the client. -/
structure Tracks (v : Server) (s : State) (l : Lifecycle.State) : Prop where
  orderly : s.client.Orderly v
  gives : ∀ key id body, .response key id body ∈ s.toClient → Gives v body
  start : l.start = s.client.startPc
  status : l.status = s.client.status
  frame : l.frame = .looping

/-- The server gives its properties only. -/
theorem Session.take_gives (v : Server) (s : Session) (f : ClientFrame) (key : CommandKey) (id : UInt32)
    (body : ResponseBody) (h : .response key id body ∈ (s.take v f).2) : Gives v body := by
  rintro code properties rfl
  unfold Session.take at h
  cases f <;> dsimp only [Session.violate] at h <;> repeat' split at h
  all_goals
    simp only [List.mem_cons, List.not_mem_nil, ServerFrame.response.injEq,
      ResponseBody.peerProperties.injEq, reduceCtorEq, and_false, or_false] at h
  exact h.2.2.2

theorem Tracks.step {p : Parameters} {v : Server} {s t : State} {a : Act} {l : Lifecycle.State}
    (h : Tracks v s l) (hstep : Handshake.step p v s a = some t) :
    ∃ l', (Lifecycle.machine (exchanges v)).Leads l l' ∧ Tracks v t l' := by
  have hchange (hc : s.client.Change v t.client)
      (hgives : ∀ key id body, .response key id body ∈ t.toClient → Gives v body) :
      ∃ l', (Lifecycle.machine (exchanges v)).Leads l l' ∧ Tracks v t l' :=
    ⟨t.client.live l, leads_change h.orderly h.start h.status h.frame hc,
      h.orderly.change hc, hgives, rfl, rfl, h.frame⟩
  cases a <;> simp only [Handshake.step] at hstep
  case start =>
    obtain ⟨r, hr, rfl⟩ := Option.map_eq_some_iff.1 hstep
    exact hchange (Starter.change_start h.orderly hr) h.gives
  case timeout =>
    obtain ⟨c, hc, rfl⟩ := Option.map_eq_some_iff.1 hstep
    exact hchange (Starter.change_timeout hc) h.gives
  case disconnect e =>
    obtain ⟨c, hc, rfl⟩ := Option.map_eq_some_iff.1 hstep
    exact hchange (Starter.change_disconnect hc) h.gives
  case frames =>
    split at hstep
    · cases hstep
    · rename_i f rest hqueue
      obtain rfl := Option.some.inj hstep
      refine hchange (Starter.change_handle fun key id body hf => ?_) fun key id body hmem => ?_
      · exact h.gives key id body (by simp [hqueue, hf])
      · exact h.gives key id body (by simp [hqueue, hmem])
  case server =>
    split at hstep
    · cases hstep
    · rename_i f rest hqueue
      obtain rfl := Option.some.inj hstep
      refine hchange .still fun key id body hmem => ?_
      rcases List.mem_append.1 hmem with hmem | hmem
      · exact h.gives key id body hmem
      · exact Session.take_gives v s.session f key id body hmem
  case clientBeat =>
    split at hstep <;> cases hstep
    exact hchange .still h.gives
  case serverBeat =>
    split at hstep <;> cases hstep
    refine hchange .still fun key id body hmem => h.gives key id body ?_
    simpa using hmem

/-- **`start()` and a server stay within the life of the client**: after every run, `start()` is where
it can be in a life of the client, with the same status and the frame thread in its loop. -/
theorem reachable_of_run (p : Parameters) (v : Server) {as : List Act} {t : State}
    (h : (machine p v).run (init p) as = some t) :
    ∃ l, (Lifecycle.machine (exchanges v)).Reachable l ∧ l.start = t.client.startPc ∧
      l.status = t.client.status ∧ l.frame = .looping := by
  have hconnected : (Lifecycle.machine (exchanges v)).Reachable
      { Lifecycle.initial with
        status := .starting
        start := .awaiting .peerProperties
        frame := .looping } :=
    ⟨Lifecycle.initial, [.start, .connected], rfl, rfl⟩
  have hinit : Tracks v (init p) { Lifecycle.initial with
      status := .starting
      start := .awaiting .peerProperties
      frame := .looping } := by
    refine ⟨⟨nofun, fun _ _ => rfl, nofun, fun k hk hpc => ?_⟩, nofun, rfl, rfl, rfl⟩
    rcases hpc with hpc | hpc <;> cases hpc
    exact absurd rfl hk
  obtain ⟨l, hl, htracks⟩ := Machine.leads_simulates (M := machine p v) Tracks.step hinit h
  exact ⟨l, hconnected.leads hl, htracks.start, htracks.status, htracks.frame⟩

end Handshake

/-! ## A client in service -/

namespace Heartbeat

/-- The frame thread as the life of the client has it, which does not tell apart where it is in its
loop. -/
def FramePc.Matches : FramePc → Lifecycle.FramePc → Prop
  | .left, l => ∃ r, l = .left r
  | .closing, l => ∃ r, l = .closing r
  | .exited, l => l = .exited
  | _, l => l = .looping

/-- A client in service and a life of the client. -/
structure Tracks (s : State) (l : Lifecycle.State) : Prop where
  start : l.start = .returned
  status : l.status = s.status
  frame : s.frame.Matches l.frame
  heartbeat : l.heartbeat = decide (s.strand = .shutdown)
  /-- There are always more calls of `stop()`. -/
  stops : ∃ n, ∀ m, n ≤ m → l.stops (.user m) = .idle

variable {exchange : Bool} {s t : State} {l : Lifecycle.State}

/-- The strand, the owner and the frame thread in its loop do not touch what the life has. -/
theorem Tracks.still (h : Tracks s l) (hstatus : t.status = s.status)
    (hframe : s.frame.Matches l.frame → t.frame.Matches l.frame)
    (hstrand : (t.strand = .shutdown) = (s.strand = .shutdown)) :
    ∃ l', (Lifecycle.machine exchange).Leads l l' ∧ Tracks t l' := by
  refine ⟨l, Machine.Leads.refl l, h.start, h.status.trans hstatus.symm, hframe h.frame, ?_, h.stops⟩
  simp only [hstrand]
  exact h.heartbeat

/-- The frame thread leaves its loop. -/
theorem Tracks.leave (h : Tracks s l) (hloop : l.frame = .looping) {r : Lifecycle.ShutdownReason}
    (hr : canLeave s.status r = true) :
    ∃ l', (Lifecycle.machine exchange).Leads l l' ∧ Tracks { s with frame := .left } l' := by
  refine ⟨{ l with frame := .left r }, Machine.Leads.step (a := .leave r) ?_,
    h.start, h.status, ⟨r, rfl⟩, h.heartbeat, h.stops⟩
  simp [Lifecycle.machine, Lifecycle.step, hloop, h.status, hr]

theorem Tracks.step {a : Act} (h : Tracks s l) (hstep : Heartbeat.step s a = some t) :
    ∃ l', (Lifecycle.machine exchange).Leads l l' ∧ Tracks t l' := by
  -- the frame thread is in its loop, and stays there
  have hin {pc : FramePc} (hpc : s.frame = pc) (hl : pc.Matches = (· = .looping)) :
      l.frame = .looping := by
    have hm := h.frame
    rw [hpc, hl] at hm
    exact hm
  have hloop {pc pc' : FramePc} (hpc : s.frame = pc) (hl : pc.Matches = (· = .looping))
      (hl' : pc'.Matches = (· = .looping)) (_ : s.frame.Matches l.frame) : pc'.Matches l.frame := by
    rw [hl']
    exact hin hpc hl
  cases a <;> simp only [Heartbeat.step] at hstep
  case strandRead =>
    split at hstep
    · rename_i hc
      split at hstep <;> cases hstep
      · exact h.still rfl (hloop hc.2 rfl rfl) rfl
      · cases s.connectionFailed
        · exact h.still rfl (hloop hc.2 rfl rfl) rfl
        · exact h.still rfl (hloop hc.2 rfl rfl) rfl
    · cases hstep
  case strandFrame f =>
    split at hstep
    · split at hstep <;> cases hstep
      · rename_i hpc
        exact h.still rfl (hloop hpc rfl rfl) rfl
      · exact h.still rfl id rfl
    · cases hstep
  case strandError =>
    split at hstep <;> cases hstep
    by_cases hpc : s.frame = .pending
    · rw [if_pos hpc]
      exact h.still rfl (hloop hpc rfl rfl) rfl
    · rw [if_neg hpc]
      exact h.still rfl id rfl
  case idle =>
    split at hstep
    · rename_i hidle
      split at hstep <;> cases hstep
      · rename_i hstarted
        have hquiet : l.heartbeat = false := by rw [h.heartbeat, hidle]; rfl
        refine ⟨{ l with status := .stopping, heartbeat := true },
          Machine.Leads.step (a := .heartbeatExchange) ?_, h.start, rfl, h.frame, rfl, h.stops⟩
        simp [Lifecycle.machine, Lifecycle.step, hquiet, h.status, hstarted]
      · exact h.still rfl id rfl
    · cases hstep
  case idleShutdown =>
    split at hstep <;> cases hstep
    rename_i hshutdown
    have hbeat : l.heartbeat = true := by rw [h.heartbeat, hshutdown]; rfl
    refine ⟨{ l with heartbeat := false, notified := l.notified ++ [.heartbeatTimeout] },
      Machine.Leads.step (a := .heartbeatShutdown) ?_, h.start, h.status, h.frame, rfl, h.stops⟩
    simp [Lifecycle.machine, Lifecycle.step, hbeat]
  case idleTest =>
    split at hstep <;> cases hstep
    rename_i hlistener
    refine h.still rfl id ?_
    cases s.heeds <;> simp [hlistener]
  case idleLock =>
    split at hstep <;> cases hstep
    rename_i hc
    exact h.still rfl id (by simp [hc.1])
  case idleClear =>
    split at hstep <;> cases hstep
    rename_i hlocked
    refine h.still rfl id ?_
    by_cases hlast : s.owned ∧ s.borrowed = 0 <;> simp [hlocked, hlast]
  case idleJoin =>
    split at hstep <;> cases hstep
    rename_i hc
    exact h.still rfl id (by simp [hc.1])
  case idleEnd =>
    split at hstep <;> cases hstep
    rename_i hc
    exact h.still rfl id (by simp [hc.1])
  case frameTake =>
    split at hstep
    · rename_i hpc
      obtain rfl := Option.some.inj hstep
      have hl := hin hpc rfl
      exact h.leave hl (r := .unknown) (by cases s.status <;> rfl)
    · rename_i f hpc
      have hl := hin hpc rfl
      split at hstep <;> cases hstep
      · rename_i hstopping
        by_cases hf : f = .closeResponse
        · rw [if_pos hf]
          exact h.leave hl (r := .clientInitiated) (by rw [hstopping]; rfl)
        · rw [if_neg hf]
          exact h.still rfl (hloop hpc rfl rfl) rfl
      · exact h.still rfl (hloop hpc rfl rfl) rfl
    · cases hstep
  case frameListen =>
    split at hstep
    · rename_i f hpc
      split at hstep <;> cases hstep
      exact h.still rfl (hloop hpc rfl rfl) rfl
    · cases hstep
  case frameLock =>
    split at hstep
    · rename_i f hpc
      split at hstep <;> cases hstep
      exact h.still rfl (hloop hpc rfl rfl) rfl
    · cases hstep
  case frameUnlock =>
    split at hstep <;> cases hstep
    rename_i f hpc
    exact h.still rfl (hloop hpc rfl rfl) rfl
  case frameDone =>
    split at hstep <;> cases hstep
    rename_i f hpc
    by_cases hf : f = .close
    · rw [if_pos hf]
      -- the status may have been changed while the handler ran; the reason is not used then
      have hl := hin hpc rfl
      by_cases hstopping : s.status = .stopping
      · exact h.leave hl (r := .unknown) (by rw [hstopping]; rfl)
      · refine h.leave hl (r := .serverInitiated) ?_
        cases hs : s.status <;> first | rfl | exact absurd hs hstopping
    · rw [if_neg hf]
      exact h.still rfl (hloop hpc rfl rfl) rfl
  case frameExchange =>
    split at hstep
    · rename_i hpc
      have hleft := h.frame
      rw [hpc] at hleft
      obtain ⟨r, hr⟩ := hleft
      split at hstep <;> cases hstep
      · rename_i hstarted
        refine ⟨{ l with status := .stopping, frame := .closing r },
          Machine.Leads.step (a := .frameExchange) ?_, h.start, rfl, ⟨r, rfl⟩, h.heartbeat, h.stops⟩
        simp [Lifecycle.machine, Lifecycle.step, hr, h.status, hstarted]
      · rename_i hstarted
        refine ⟨{ l with frame := .exited },
          Machine.Leads.step (a := .frameExchange) ?_, h.start, h.status, rfl, h.heartbeat, h.stops⟩
        simp [Lifecycle.machine, Lifecycle.step, hr, h.status, hstarted]
    · cases hstep
  case otherLock | otherUnlock | borrow | take | release =>
    split at hstep <;> cases hstep
    exact h.still rfl id rfl
  case stop =>
    split at hstep <;> cases hstep
    obtain ⟨n, hn⟩ := h.stops
    refine ⟨{ l with
        status := .stopping
        stops := Function.update l.stops (.user n) (.exchanged l.status) },
      Machine.Leads.step (a := .stop (.user n)) ?_, h.start, rfl, h.frame, h.heartbeat,
      n + 1, fun m hm => ?_⟩
    · simp [Lifecycle.machine, Lifecycle.step, hn n le_rfl]
    · have hne : Lifecycle.Caller.user m ≠ .user n := fun he => by
        obtain rfl := Lifecycle.Caller.user.inj he
        exact Nat.not_succ_le_self m hm
      exact (Function.update_of_ne hne ..).trans (hn m (Nat.le_of_succ_le hm))
  case ownerStatus b =>
    cases hstep
    exact h.still rfl id rfl

/-- **A client in service stays within the life of the client**: after every run with its owner and its
strand, the status and the frame thread are those of some life in which `start()` has returned. -/
theorem reachable_of_run (exchange : Bool) (owner : Owner) (ownerStarted : Bool) {as : List Act}
    {t : State} (h : machine.run (initial owner ownerStarted) as = some t) :
    ∃ l, (Lifecycle.machine exchange).Reachable l ∧ l.start = .returned ∧ l.status = t.status ∧
      t.frame.Matches l.frame := by
  have hstarted : (Lifecycle.machine exchange).Reachable
      { Lifecycle.initial with status := .started, start := .returned, frame := .looping } := by
    cases exchange with
    | false => exact ⟨Lifecycle.initial, Lifecycle.handshake ++ [Lifecycle.Act.startExchange], rfl, rfl⟩
    | true =>
      exact ⟨Lifecycle.initial, Lifecycle.handshake ++ [Lifecycle.Act.answer, .proceed, .startExchange], rfl, rfl⟩
  have hinit : Tracks (initial owner ownerStarted)
      { Lifecycle.initial with status := .started, start := .returned, frame := .looping } :=
    ⟨rfl, rfl, rfl, rfl, 0, fun _ _ => rfl⟩
  obtain ⟨l, hl, htracks⟩ := Machine.leads_simulates (M := machine) Tracks.step hinit h
  exact ⟨l, hstarted.leads hl, htracks.start, htracks.status, htracks.frame⟩

end Heartbeat

/-! ## The frames -/

namespace Frames

open Wire
open Connection.Reader (frameBuffer)

variable {μ : Type}

/-- The frame thread as the life of the client has it, as long as the process lives. -/
def Loop.framePc : Loop → Option Lifecycle.FramePc
  | running => some .looping
  | left reason => some (.left reason)
  | escaped => none

/-- The handlers touch neither the status nor the loop. -/
def Inside (s t : State μ) : Prop := t.status = s.status ∧ t.loop = s.loop

instance : IsPreorder (State μ) Inside where
  refl _ := ⟨rfl, rfl⟩
  trans _ _ _ h h' := ⟨h'.1.trans h.1, h'.2.trans h.2⟩

theorem Handler.inside (handler : Handler) (p : Parameters μ) (buffer : BinaryBuffer) :
    Effect Inside (fun _ => True) (handler.invoke p buffer) := by
  by_cases hresponse : ∃ type, handler = .response type
  · obtain ⟨type, rfl⟩ := hresponse
    exact handleResponse_effect (R := Inside) (fun _ _ => ⟨rfl, rfl⟩) type buffer
  by_cases htune : handler = .tune
  · subst htune
    refine handleTune_effect (R := Inside) (fun _ _ => ⟨rfl, rfl⟩) (fun s command => ?_)
      (fun _ => ⟨rfl, rfl⟩) buffer
    simp only [State.answerTune, State.setIdleHandlers]
    split <;> exact ⟨rfl, rfl⟩
  have hsteady := handler.steady p buffer (fun type h => hresponse ⟨type, h⟩) htune
  exact hsteady.mono (fun h => ⟨h.status, h.loop⟩) fun _ => trivial

theorem dispatch_inside (p : Parameters μ) (key version : UInt16) (buffer : BinaryBuffer) :
    Effect Inside (fun _ => True) (dispatch p key version buffer) := by
  rw [dispatch]
  cases findHandler key version with
  | none => exact Effect.throw trivial
  | some handler => exact handler.inside p buffer

/-- What a frame can do to the frame thread. -/
inductive Moves (s t : State μ) : Prop
  | stay (hloop : t.loop = s.loop)
  | leave {r : Lifecycle.ShutdownReason} (hr : canLeave s.status r = true) (hleft : t.loop = .left r)
  | escape (hescaped : t.loop = .escaped)

/-- A read that fails leaves the loop under any status. -/
theorem canLeave_unknown (status : Lifecycle.Status) : canLeave status .unknown = true := by
  cases status <;> rfl

/-- What becomes of an exception. -/
theorem moves_error {s t : State μ} (h : Inside s t) (e : FrameException)
    (he : ∀ what, e = .serverClose what → s.status ≠ .stopping) :
    (catchFrame (.error e t)).status = s.status ∧ Moves s (catchFrame (.error e t)) := by
  cases e with
  | serverClose what =>
    refine ⟨h.1, .leave (r := .serverInitiated) ?_ rfl⟩
    have hstatus := he what rfl
    cases hs : s.status <;> first | rfl | exact absurd hs hstatus
  | io e => exact ⟨h.1, .leave (r := .unknown) (canLeave_unknown _) rfl⟩
  | stream e => exact ⟨h.1, .stay h.2⟩
  | futureError => exact ⟨h.1, .escape rfl⟩

theorem moves_frame (p : Parameters μ) (s : State μ) (buffer : BinaryBuffer) :
    (catchFrame (processFrame p buffer s)).status = s.status ∧
      Moves s (catchFrame (processFrame p buffer s)) := by
  rw [processFrame]
  cases readHeader buffer with
  | error e => exact ⟨rfl, .stay rfl⟩
  | ok header =>
    obtain ⟨⟨key, version⟩, buffer⟩ := header
    dsimp only
    by_cases hstatus : s.status = .stopping
    · rw [if_neg (not_not.2 hstatus)]
      split
      · -- the response to the request to close, if it can be decoded
        show (catchFrame (EStateM.bind _ _ s)).status = _ ∧ Moves s (catchFrame (EStateM.bind _ _ s))
        rw [EStateM.bind, handleResponse_eq]
        cases deserializeResponse .generic buffer with
        | error e => exact moves_error ⟨rfl, rfl⟩ (.stream e) (by simp)
        | ok response => exact ⟨rfl, .leave (r := .clientInitiated) (by rw [hstatus]; rfl) rfl⟩
      · exact ⟨rfl, .stay rfl⟩
    · rw [if_pos hstatus]
      show (catchFrame (EStateM.bind _ _ s)).status = _ ∧ Moves s (catchFrame (EStateM.bind _ _ s))
      rw [EStateM.bind]
      have hinside := dispatch_inside p (key &&& 0x7FFF) version buffer s
      cases hresult : dispatch p (key &&& 0x7FFF) version buffer s with
      | ok u t =>
        rw [hresult] at hinside
        exact ⟨hinside.1, .stay hinside.2⟩
      | error e t =>
        rw [hresult] at hinside
        exact moves_error hinside.1 e fun _ _ => hstatus

/-- **The frame thread stays within the life of the client**, whatever bytes the server sends: in a
life with the same status and the same frame thread, a step of it or of the callers is matched, unless
it terminates the process. The other parties of that life set the status. -/
theorem leads_of_step (exchange : Bool) {p : Parameters μ} {s t : State μ} {a : Act}
    {l : Lifecycle.State} (hstatus : l.status = s.status) (hframe : s.loop.framePc = some l.frame)
    (hstep : step p s a = some t) (ha : ∀ status, a ≠ .setStatus status) :
    t.loop = .escaped ∨ ∃ l', (Lifecycle.machine exchange).Leads l l' ∧ l'.status = t.status ∧
      t.loop.framePc = some l'.frame := by
  have hmatched (hmoved : t.status = s.status ∧ Moves s t) (hrunning : s.loop = .running) :
      t.loop = .escaped ∨ ∃ l', (Lifecycle.machine exchange).Leads l l' ∧ l'.status = t.status ∧
        t.loop.framePc = some l'.frame := by
    obtain ⟨hst, hmoves⟩ := hmoved
    cases hmoves with
    | stay hloop =>
      rw [hloop, hst]
      exact .inr ⟨l, Machine.Leads.refl l, hstatus, hframe⟩
    | @leave r hr hleft =>
      have hlooping : l.frame = .looping := by
        rw [hrunning] at hframe
        exact (Option.some.inj hframe).symm
      refine .inr ⟨{ l with frame := .left r }, Machine.Leads.step (a := .leave r) ?_,
        hstatus.trans hst.symm, by rw [hleft]; rfl⟩
      simp [Lifecycle.machine, Lifecycle.step, hlooping, hstatus, hr]
    | escape hescaped => exact .inl hescaped
  cases a with
  | frame payload =>
    obtain ⟨hrunning, hstep⟩ := Option.ite_none_right_eq_some.1 hstep
    obtain rfl := Option.some.inj hstep
    exact hmatched (moves_frame p s (frameBuffer payload)) hrunning
  | readFails e =>
    obtain ⟨hrunning, hstep⟩ := Option.ite_none_right_eq_some.1 hstep
    obtain rfl := Option.some.inj hstep
    exact hmatched (moves_error ⟨rfl, rfl⟩ (.io e) (by simp)) hrunning
  | setStatus status => exact absurd rfl (ha status)
  | request a =>
    obtain ⟨requests, -, rfl⟩ := step_request hstep
    exact .inr ⟨l, Machine.Leads.refl l, hstatus, hframe⟩

end Frames

end Hareflow.Client
