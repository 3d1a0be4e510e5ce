/-
A refused payload leaves no trace.

One kind of fault does not end a query: a reply to a phase that is not being asked, or a token
that is held already. Such a payload is passed over, so it must not have left anything behind
by then. It has not, because every reader refuses before it notes: whatever comes after the
first note can only end the query (`Closes`). So a refused payload has told nothing
(`Protocol.read_refused`), and what follows is that the exchange, the target and the engine
are as they were (`refused_harmless`).
-/
import ServerProbe.Proofs.Repeating

set_option autoImplicit false

namespace ServerProbe

open Reply

/-! ## Readers that refuse before they note -/

namespace Reply

variable {α β : Type}

/-- Whether a reader notes nothing, as long as it goes on. -/
def Silent (m : Reply α) : Prop :=
  ∀ r noted a r' noted', m r noted = .next a r' noted' → noted' = noted

/-- Whether a reader that refuses a payload has noted nothing by then. -/
def RefusesFirst (m : Reply α) : Prop :=
  ∀ r noted fault noted', m r noted = .stop fault noted' → fault.kind.isFatal = false →
    noted' = noted

theorem Yields.silent {m : Reply α} (h : Yields (fun _ => False) (fun _ => True) m) :
    Silent m := by
  intro r noted a r' noted' hstep
  have hrun := h r noted
  rw [hstep] at hrun
  obtain ⟨-, new, rfl, hnew⟩ := hrun
  rw [List.eq_nil_iff_forall_not_mem.mpr hnew, List.nil_append]

theorem Closes.refusesFirst {m : Reply α} (h : Closes m) : RefusesFirst m := by
  intro r noted fault noted' hstop hharmless
  rw [h r noted fault noted' hstop] at hharmless
  cases hharmless

theorem refusesFirst_fail (fault : Fault) : RefusesFirst (fail fault : Reply α) := by
  intro r noted fault' noted' hstop _
  cases hstop
  rfl

theorem refusesFirst_accept (s : Situation) (phase : Phase) : RefusesFirst (accept s phase) := by
  unfold accept
  split
  · exact refusesFirst_fail _
  · exact (stops_pure ()).closes.refusesFirst

theorem refusesFirst_require (value : Option α) (fault : Fault) :
    RefusesFirst (require value fault) := by
  rcases value with _ | a
  · exact refusesFirst_fail fault
  · exact (stops_pure a).closes.refusesFirst

theorem refusesFirst_ite {c : Prop} [Decidable c] {m₁ m₂ : Reply α} (h₁ : RefusesFirst m₁)
    (h₂ : RefusesFirst m₂) : RefusesFirst (if c then m₁ else m₂) := by
  split
  · exact h₁
  · exact h₂

/-- What comes first has to be silent, since what follows may refuse. -/
theorem refusesFirst_bind {m : Reply α} {k : α → Reply β} (hsilent : Silent m)
    (hm : RefusesFirst m) (hk : ∀ a, RefusesFirst (k a)) : RefusesFirst (m >>= k) := by
  intro r noted fault noted' hstop hharmless
  rcases h : m r noted with ⟨a, r₁, noted₁⟩ | ⟨fault₁, noted₁⟩
  · rw [bind_next h] at hstop
    rw [hk a r₁ noted₁ fault noted' hstop hharmless]
    exact hsilent r noted a r₁ noted₁ h
  · rw [bind_stop h] at hstop
    cases hstop
    exact hm r noted fault noted' h hharmless

theorem refusesFirst_read {op : Reader.Read α} {k : α → Reply β}
    (hk : ∀ a, RefusesFirst (k a)) : RefusesFirst (read op >>= k) :=
  refusesFirst_bind (yields_read op).silent (stops_read_inPayload op).closes.refusesFirst hk

/-- A reply to a phase is refused before it is read. -/
theorem refusesFirst_answer {s : Situation} {phase : Phase} {k : Unit → Reply β}
    (hk : ∀ a, RefusesFirst (k a)) : RefusesFirst (accept s phase >>= k) :=
  refusesFirst_bind (yields_accept s phase).silent (refusesFirst_accept s phase) hk

/-- A token is noted only where it is of use. -/
theorem refusesFirst_token (s : Situation) (token : Int32) :
    RefusesFirst (if s.current = some .challenge then do
        accept s .challenge
        note (.token token)
        pure (.done (PhaseSet.ofList [.challenge]) true)
      else if s.session.challenge = some token then fail (.unexpected .challenge)
      else do
        note (.token token)
        pure (.more true) : Reply Ending) := by
  have hnoted : ∀ ending : Ending, Closes (note (.token token) >>= fun _ => pure ending) :=
    fun ending => (stops_bind (stops_note _) fun _ => stops_pure ending).closes
  refine refusesFirst_ite (refusesFirst_answer fun _ => (hnoted _).refusesFirst) ?_
  exact refusesFirst_ite (refusesFirst_fail _) (hnoted _).refusesFirst

end Reply

/-! ## The readers of the protocols -/

namespace Protocol

/-! ### Source and GoldSrc -/

namespace A2s

theorem refusesFirst_answerOf {s : Situation} {phase : Phase} {body : Reply Unit}
    (hbody : StopsWith Fault.InPayload body) : RefusesFirst (answer s phase body) :=
  refusesFirst_answer fun _ => (stops_bind hbody fun _ => stops_pure _).closes.refusesFirst

theorem refusesFirst_single (s : Situation) : RefusesFirst (single s) := by
  refine refusesFirst_read fun kind => refusesFirst_ite ?_ ?_
  · exact refusesFirst_read fun token => refusesFirst_token s token
  refine refusesFirst_ite (refusesFirst_answerOf ?_) ?_
  · exact stops_bind stops_status fun _ => stops_note _
  refine refusesFirst_ite (refusesFirst_answerOf ?_) ?_
  · exact stops_bind stops_goldSrcStatus fun _ => stops_note _
  refine refusesFirst_ite (refusesFirst_answerOf ?_) ?_
  · exact stops_bind (stops_read_inPayload _) fun _ => stops_rules _
  refine refusesFirst_ite (refusesFirst_answerOf ?_) (refusesFirst_fail _)
  exact stops_bind (stops_read_inPayload _) fun _ => stops_players _

theorem refusesFirst_reply (s : Situation) : RefusesFirst (reply s) := by
  refine refusesFirst_read fun marker => refusesFirst_ite (refusesFirst_single s) ?_
  exact refusesFirst_ite (stops_split s).closes.refusesFirst (refusesFirst_fail _)

end A2s

/-! ### The first GameSpy query -/

namespace GameSpy

theorem refusesFirst_ofExcept {α : Type} (value : Except Fault α) :
    RefusesFirst (ofExcept value) := by
  rcases value with fault | a
  · exact refusesFirst_fail fault
  · exact (stops_pure a).closes.refusesFirst

theorem refusesFirst_reply (s : Situation) : RefusesFirst (reply s) := by
  refine refusesFirst_answer fun _ => ?_
  refine refusesFirst_bind yields_takeRest.silent stops_takeRest.closes.refusesFirst
    fun payload => ?_
  refine refusesFirst_bind (yields_ofExcept _).silent (refusesFirst_ofExcept _) fun pairs => ?_
  refine refusesFirst_bind (yields_ofExcept _).silent (refusesFirst_ofExcept _) fun n => ?_
  -- what is left cannot be refused any more, and it notes the number first
  refine (StopsWith.closes (stops_ite (stops_pure _) ?_)).refusesFirst
  refine stops_bind (stops_note _) fun _ => stops_bind (stops_notePairs pairs) fun _ => ?_
  exact stops_ite (stops_pure _) (stops_pure _)

end GameSpy

/-! ### Quake 3 -/

namespace Quake3

theorem refusesFirst_reply (s : Situation) : RefusesFirst (reply s) := by
  refine refusesFirst_read fun _ => ?_
  have hexpects := stops_expectResponse.closes.refusesFirst
  refine refusesFirst_bind yields_expectResponse.silent hexpects fun _ => ?_
  refine refusesFirst_answer fun _ => (StopsWith.closes ?_).refusesFirst
  refine stops_bind stops_takeRest fun _ => ?_
  exact stops_bind (stops_noteLines _) fun _ => stops_pure _

end Quake3

/-! ### The fourth GameSpy query -/

namespace GameSpy4

theorem refusesFirst_handshake (s : Situation) : RefusesFirst (handshake s) := by
  refine refusesFirst_read fun text => ?_
  exact refusesFirst_bind (yields_require _ _).silent (refusesFirst_require _ _) fun token =>
    refusesFirst_token s token

theorem refusesFirst_reply (s : Situation) : RefusesFirst (reply s) := by
  refine refusesFirst_read fun kind => refusesFirst_read fun id => ?_
  refine refusesFirst_ite (refusesFirst_fail _) (refusesFirst_ite (refusesFirst_handshake s) ?_)
  refine refusesFirst_ite (refusesFirst_answer fun _ => ?_) (refusesFirst_fail _)
  exact (stops_bind stops_fullStatus fun _ => stops_pure _).closes.refusesFirst

end GameSpy4

/-! ### All protocols -/

theorem refusesFirst_reply (p : Protocol) (s : Situation) : RefusesFirst (p.reply s) := by
  cases p with
  | a2s => exact A2s.refusesFirst_reply s
  | gamespy => exact GameSpy.refusesFirst_reply s
  | q3 => exact Quake3.refusesFirst_reply s
  | gs4 => exact GameSpy4.refusesFirst_reply s

/-- **A refused payload has told nothing.** -/
theorem read_refused {p : Protocol} {s : Situation} {payload : List UInt8} {fault : Fault}
    (h : (p.read s payload).ending = .error fault) (hharmless : fault.kind.isFatal = false) :
    p.read s payload = ⟨[], .error fault⟩ := by
  have hrefuses := p.refusesFirst_reply s (Reader.ofPayload payload) []
  rw [read, readAll_eq] at h ⊢
  rcases hrun : p.reply s (Reader.ofPayload payload) [] with ⟨ending, r, noted⟩ | ⟨stop, noted⟩
  · rw [hrun] at h
    cases h
  · rw [hrun] at h
    obtain rfl : stop = fault := Except.error.inj h
    rw [hrefuses stop noted hrun hharmless]
    rfl

end Protocol

/-! ## What a refused payload does -/

/-- **A refused payload leaves the exchange as it was.** -/
theorem Exchange.receive_refused {x : Exchange} {p : Protocol} {params : RequestParams}
    {current : Option Phase} {closed : PhaseSet} {payload : List UInt8}
    (h : (x.receive p params current closed payload).2.outcome = .error .orderingError) :
    ∃ phase, x.receive p params current closed payload = (x, .ofFault (.unexpected phase)) := by
  have hrefused : ∀ fault, (p.read ⟨current, closed, x.session⟩ payload).ending = .error fault →
      fault.kind.isFatal = false → p.read ⟨current, closed, x.session⟩ payload = _ :=
    fun fault => Protocol.read_refused
  rw [receive_eq] at h ⊢
  generalize p.read ⟨current, closed, x.session⟩ payload = reading at h hrefused ⊢
  rcases x.apply_cases params.rulePolicy reading with ⟨x', fault, hlearn, happly⟩ |
    ⟨x', fault, hlearn, hending, happly⟩ | ⟨x', ending, hlearn, -, happly⟩
  · -- a fact for which there is no room ends the query
    have hfatal := learnAll_fault (congrArg Prod.snd hlearn)
    rw [happly] at h
    have hkind : fault.kind = .orderingError := Outcome.error.inj h
    rw [hkind] at hfatal
    cases hfatal
  · rw [happly] at h ⊢
    obtain ⟨phase, rfl⟩ := Fault.kind_eq_orderingError_iff.mp (Outcome.error.inj h)
    obtain rfl := hrefused _ hending rfl
    cases hlearn
    exact ⟨phase, rfl⟩
  · rw [happly] at h
    cases ending <;> cases h

/-- A target that refuses a payload does nothing but say so. -/
theorem Target.hear_refused {t : Target} {payload : List UInt8}
    (h : (t.exchanged payload).2.outcome = .error .orderingError) :
    ∃ message, (t.exchanged payload).2.message = some message ∧ ∀ now,
      t.hear payload now = { target := t, fault := some (.orderingError, message) } := by
  obtain ⟨phase, hreceive⟩ := Exchange.receive_refused h
  have hexchanged : t.exchanged payload = (t.exchange, .ofFault (.unexpected phase)) := hreceive
  refine ⟨(Fault.unexpected phase).message, by rw [hexchanged]; rfl, fun now => ?_⟩
  rw [hear, hexchanged]
  rfl

namespace Engine

/-- The diagnostics that a fault of a target adds. -/
def diagnosed (t : Target) (kind : ErrorKind) (message : String) : List Diagnostic :=
  if t.config.showErrors then [⟨t.id, t.address, t.protocol, kind, message⟩] else []

theorem diagnose_eq (e : Engine) (t : Target) (kind : ErrorKind) (message : String) :
    e.diagnose t kind message
      = { e with diagnostics := e.diagnostics ++ diagnosed t kind message } := by
  unfold diagnose diagnosed
  split
  · rfl
  · rw [List.append_nil]

/-- A fault that changes nothing else is passed on. -/
theorem enact_fault {e : Engine} {t : Target} (h : e.Holds t) (kind : ErrorKind)
    (message : String) :
    e.enact { target := t, fault := some (kind, message) } = e.diagnose t kind message := by
  change (e.passOn { target := t, fault := some (kind, message) }).put t = _
  rw [← passOn_put, h.alone]
  rfl

/-- **Refusals are harmless.** In every protocol, whatever is known, held, asked and sealed: a
payload with an ordering error leaves server, session and pieces as they were, makes no reply
whole, answers nothing and asks for nothing to be sent again. In an engine that a run leads to,
such a payload for an active target leaves everything as it was, whether it is handled by
itself or handed in. It only adds a diagnostic, if the target's options ask for diagnostics. -/
theorem refused_harmless :
    (∀ (x : Exchange) (p : Protocol) (params : RequestParams) (current : Option Phase)
      (closed : PhaseSet) (payload : List UInt8) (x' : Exchange) (receipt : Receipt),
      x.receive p params current closed payload = (x', receipt) →
      receipt.outcome = .error .orderingError →
      x' = x ∧ receipt.completed = [] ∧ receipt.answered = ∅ ∧ receipt.resend = false) ∧
    ∀ e : Engine, e.Reachable → ∀ t ∈ e.targets, ∀ (payload : List UInt8) (now : Instant),
      (t.exchanged payload).2.outcome = .error .orderingError →
      ∃ message, (t.exchanged payload).2.message = some message ∧
        let e' := { e with
          diagnostics := e.diagnostics ++ diagnosed t .orderingError message }
        e.process t.id payload now = e' ∧ e.deliver t.id payload now = (e', .ok ()) := by
  constructor
  · intro x p params current closed payload x' receipt hreceive hrefused
    obtain ⟨phase, hsame⟩ := Exchange.receive_refused
      ((congrArg (fun result => result.2.outcome) hreceive).trans hrefused)
    obtain ⟨rfl, rfl⟩ := Prod.mk.inj (hreceive.symm.trans hsame)
    exact ⟨rfl, rfl, rfl, rfl⟩
  · intro e hreachable t hmem payload now hrefused
    have hkept := hreachable.wellKept
    have hholds := hkept.holds hmem
    obtain ⟨message, hmessage, hhear⟩ := Target.hear_refused hrefused
    refine ⟨message, hmessage, ?_, ?_⟩
    · rw [process_eq hholds hkept.quiet, hhear now, enact_fault hholds, diagnose_eq, hkept.quiet]
      rfl
    · unfold deliver
      rw [hkept.target?_of_mem hmem]
      dsimp only
      rw [hkept.quiet, List.nil_append, drain_eq hholds hkept.quiet,
        Target.digest_of_none (congrArg Reaction.waiting? (hhear now)), List.foldl_cons,
        List.foldl_nil, Moment.reaction, Target.react, hhear now, enact_fault hholds,
        diagnose_eq, hkept.quiet]

/-- A status reply in the compact layout. -/
def shortStatus : List UInt8 :=
  [0xFF, 0xFF, 0xFF, 0xFF, 0x49, 0, 0x6E, 0, 0x6D, 0, 10, 16, 1, 0x64, 0x6C]

/-- A query for the players whose status has come before the token. -/
def statusEarly : List Call :=
  [.add .unicast "a2s" ⟨"192.0.2.1", 27015⟩ { wantPlayers := true, showErrors := true } 0 0,
    .receive ⟨"192.0.2.1", 27015⟩ shortStatus 1]

/-- The same status once more is refused, and only the diagnostics show it. -/
theorem refused_harmless_late :
    let e := run statusEarly
    (∃ t ∈ e.targets, (t.exchanged shortStatus).2.outcome = .error .orderingError) ∧
    e.deliver 1 shortStatus 2 = ({ e with
      diagnostics := [⟨1, ⟨"192.0.2.1", 27015⟩, .a2s, .orderingError,
        "response for status was not expected"⟩] }, .ok ()) := by
  obtain ⟨t, htargets, hid, hshown, hrefused, hmessage⟩ : ∃ t,
      (run statusEarly).targets = [t] ∧ t.id = 1 ∧
      diagnosed t .orderingError "response for status was not expected"
        = [⟨1, ⟨"192.0.2.1", 27015⟩, .a2s, .orderingError,
            "response for status was not expected"⟩] ∧
      (t.exchanged shortStatus).2.outcome = .error .orderingError ∧
      (t.exchanged shortStatus).2.message = some "response for status was not expected" :=
    ⟨_, rfl, rfl, rfl, by decide +kernel, by decide +kernel⟩
  have hmem : t ∈ (run statusEarly).targets := by
    rw [htargets]
    exact List.mem_singleton_self t
  obtain ⟨message, hsame, -, hdeliver⟩ :=
    refused_harmless.2 (run statusEarly) ⟨statusEarly, rfl⟩ t hmem shortStatus 2 hrefused
  obtain rfl := Option.some.inj (hmessage.symm.trans hsame)
  have hnone : (run statusEarly).diagnostics = [] := by decide +kernel
  rw [hid, hshown, hnone, List.nil_append] at hdeliver
  exact ⟨⟨t, hmem, hrefused⟩, hdeliver⟩

end Engine

end ServerProbe
