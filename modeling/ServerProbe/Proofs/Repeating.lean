/-
A datagram that comes twice does what it does once.

What keeps the second copy from doing anything depends on what the payload means. A broken
one ends the target, so there is nobody left to hear it again. A token is by then the one
that is held, and the phase it answered is sealed. A reply to a phase that is planned seals
the phase. A datagram of a numbered reply has been seen. In all these cases the copy is
refused or passed over.

A reply to phases of which none is planned seals nothing, so its copy is learned like the
reply itself. That does no harm unless it tells something that accumulates. These replies
are recorded again (`Target.RecordsAgain`), and no others are (`repeated_harmless_iff`).
-/
import ServerProbe.Proofs.RepeatedFacts
import ServerProbe.Proofs.Sealing
import ServerProbe.Proofs.Sequencing

set_option autoImplicit false

namespace ServerProbe

namespace Target

/-- Whether a payload is recorded again when it comes again: it answers phases none of which
is planned, and tells something that is recorded each time. -/
def RecordsAgain (t : Target) (payload : List UInt8) : Prop :=
  ∃ answered sealing, (t.reading payload).ending = .ok (.done answered sealing) ∧
    (∀ leg ∈ t.machine.plan, leg.phase ∉ answered) ∧
    ∃ f ∈ (t.reading payload).facts, f.Accumulates t.config.rulePolicy

/-! ## Hearing the same again -/

/-- What a target reads payloads against. -/
def situation (t : Target) : Situation :=
  ⟨t.machine.currentPhase?, t.machine.sealedPhases, t.exchange.session⟩

/-- Whether a target stays as it is when it hears a payload, and does nothing but pass on
what is wrong with it. -/
def PassesOver (t : Target) (payload : List UInt8) (now : Instant) : Prop :=
  ∃ fault, t.hear payload now = { target := t, fault }

/-- Whether a payload does nothing when it comes again: it has ended the target, or the
target passes over it then. -/
def HearsOnce (t : Target) (payload : List UInt8) (now : Instant) : Prop :=
  (∃ status, (t.hear payload now).fate = .over status) ∨
    (t.hear payload now).target.PassesOver payload now

section Hearing

variable {t : Target} {payload : List UInt8} {now : Instant}

theorem exchanged_of_reading {reading : Reading} (h : t.reading payload = reading) :
    t.exchanged payload = t.exchange.apply t.config.rulePolicy reading := by
  rw [t.exchanged_eq, h]

theorem PassesOver.hearsOnce (h : t.PassesOver payload now) : t.HearsOnce payload now := by
  obtain ⟨fault, hhear⟩ := h
  refine .inr ?_
  rw [hhear]
  exact ⟨fault, hhear⟩

/-- What says nothing, and is harmless, is passed over. -/
theorem passesOver_of_error {fault : Fault} (hharmless : fault.kind.isFatal = false)
    (h : t.reading payload = ⟨[], .error fault⟩) : t.PassesOver payload now := by
  refine ⟨some (fault.kind, fault.message), ?_⟩
  rw [hear, exchanged_of_reading h]
  unfold follow
  dsimp only [Exchange.apply, Exchange.learnAll, Receipt.ofFault, Fault.outcome]
  rw [if_neg (by rw [hharmless]; exact Bool.false_ne_true)]
  rfl

theorem passesOver_of_more (h : t.reading payload = ⟨[], .ok (.more false)⟩) :
    t.PassesOver payload now := by
  refine ⟨none, ?_⟩
  rw [hear, exchanged_of_reading h]
  rfl

theorem hearsOnce_of_fatal {kind : ErrorKind} (hfatal : kind.isFatal = true)
    (h : (t.exchanged payload).2.outcome = .error kind) : t.HearsOnce payload now :=
  .inl ⟨_, hear_fatal hfatal h⟩

theorem hearsOnce_of_error {fault : Fault} (h : t.reading payload = ⟨[], .error fault⟩) :
    t.HearsOnce payload now := by
  by_cases hfatal : fault.kind.isFatal = true
  · refine hearsOnce_of_fatal hfatal ?_
    rw [exchanged_of_reading h]
    rfl
  · exact (passesOver_of_error (by simpa using hfatal) h).hearsOnce

end Hearing

/-! ### One meaning at a time -/

section Meanings

variable {t : Target} {payload : List UInt8} {meaning : Meaning}
  (hmeaning : ∀ s, s.session.sessionId = t.exchange.session.sessionId →
    t.protocol.read s payload = meaning.reading s)

include hmeaning in
theorem reading_of_meaning : t.reading payload = meaning.reading t.situation :=
  hmeaning t.situation rfl

include hmeaning in
/-- A payload that has been heard still means the same. -/
theorem reading_hear (now : Instant) : (t.hear payload now).target.reading payload
    = meaning.reading (t.hear payload now).target.situation := by
  obtain ⟨m, l, h⟩ := t.hear_target payload now
  have hid : (t.exchanged payload).1.session.sessionId = t.exchange.session.sessionId := by
    rw [t.exchanged_eq, Exchange.apply_session]
    exact t.exchange.learnAll_sessionId t.config.rulePolicy _
  rw [h]
  exact hmeaning _ hid

end Meanings

section Meanings

variable {t : Target} {payload : List UInt8} {now : Instant} (hwaits : t.machine.Waits)
  (htight : t.machine.Tight)

include hwaits htight

omit hwaits htight in
/-- Once the token is held and the challenge is behind, the token is refused. -/
theorem passesOver_token {value : Int32}
    (hmeaning : ∀ s, s.session.sessionId = t.exchange.session.sessionId →
      t.protocol.read s payload = (Meaning.token value).reading s)
    (hpast : (t.hear payload now).target.machine.currentPhase? ≠ some .challenge)
    (hheld : (t.exchanged payload).1.session.challenge = some value) :
    (t.hear payload now).target.PassesOver payload now := by
  have hagain := reading_hear hmeaning now
  dsimp only [Meaning.reading, situation] at hagain
  rw [if_neg hpast, t.hear_exchange, if_pos hheld] at hagain
  exact passesOver_of_error rfl hagain

/-- A token that comes again is the one that is held. -/
theorem hearsOnce_token {value : Int32}
    (hmeaning : ∀ s, s.session.sessionId = t.exchange.session.sessionId →
      t.protocol.read s payload = (Meaning.token value).reading s) : t.HearsOnce payload now := by
  have hread := reading_of_meaning hmeaning
  dsimp only [Meaning.reading] at hread
  by_cases hcurrent : t.situation.current = some .challenge
  · rw [if_pos hcurrent] at hread
    by_cases hsealed : .challenge ∈ t.situation.sealed
    · rw [if_pos hsealed] at hread
      exact hearsOnce_of_error hread
    · rw [if_neg hsealed] at hread
      have hexchanged : t.exchanged payload = ({ t.exchange with session.challenge := some value },
          { outcome := .done true, answered := PhaseSet.ofList [.challenge] }) :=
        exchanged_of_reading hread
      obtain ⟨leg, hleg, hphase⟩ := Option.map_eq_some_iff.mp hcurrent
      have hanswered : leg.phase ∈ PhaseSet.ofList [.challenge] := by
        rw [hphase]
        decide
      obtain ⟨leg', hleg', hphase', hstatus⟩ := Machine.mem_sealedPhases.mp
        (sealed_of_answer hwaits.toSound htight (by rw [hexchanged]) (List.mem_of_getElem? hleg)
          (by rwa [hexchanged]) now)
      refine .inr (passesOver_token hmeaning ?_ (by rw [hexchanged]))
      rw [← hphase, ← hphase']
      exact (hear_sound payload now hwaits.toSound).currentPhase?_ne hleg' (by rw [hstatus]; rfl)
  · rw [if_neg hcurrent] at hread
    by_cases hheld : t.situation.session.challenge = some value
    · rw [if_pos hheld] at hread
      exact hearsOnce_of_error hread
    · rw [if_neg hheld] at hread
      have hexchanged : t.exchanged payload = ({ t.exchange with session.challenge := some value },
          { outcome := .inProgress, resend := true }) := exchanged_of_reading hread
      obtain ⟨leg, sent, hleg, -, -⟩ := hwaits.asked
      have hphase : leg.phase ≠ .challenge := by
        intro hphase
        exact hcurrent (by rw [situation, Machine.currentPhase?, hleg, Option.map_some, hphase])
      -- nothing is answered, so the machine only asks again
      have hpath := t.hear_path payload now
      unfold counted at hpath
      rw [hexchanged] at hpath
      have hpast := hpath.past_challenge hwaits.toSound hleg hphase
      exact .inr (passesOver_token hmeaning hpast (by rw [hexchanged]))

omit hwaits htight in
/-- A datagram of a numbered reply that comes again has been seen. -/
theorem hearsOnce_datagram {number : UInt8} {final : Bool} {facts : List Fact}
    {fault : Option Fault} (hmeaning : ∀ s, s.session.sessionId = t.exchange.session.sessionId →
      t.protocol.read s payload = (Meaning.datagram number final facts fault).reading s) :
    t.HearsOnce payload now := by
  have hread := reading_of_meaning hmeaning
  dsimp only [Meaning.reading] at hread
  by_cases hsealed : .status ∈ t.situation.sealed
  · rw [if_pos hsealed] at hread
    exact hearsOnce_of_error hread
  rw [if_neg hsealed] at hread
  by_cases hcame : Session.maskHas t.situation.session.received number = true
  · rw [if_pos hcame] at hread
    exact (passesOver_of_more hread).hearsOnce
  rw [if_neg hcame] at hread
  -- the first thing that is learned is that the number has come
  have hseen : Session.maskHas (t.exchanged payload).1.session.received number = true := by
    rw [exchanged_of_reading hread, Exchange.apply_session]
    refine Exchange.learnAll_seen ?_ facts
    show Session.maskHas (t.exchange.session.received ||| Session.datagramBit number) number = true
    rw [Session.maskHas_or, Session.maskHas_self, Bool.or_true]
  have hagain := reading_hear hmeaning now
  dsimp only [Meaning.reading] at hagain
  by_cases hsealed' : .status ∈ (t.hear payload now).target.situation.sealed
  · rw [if_pos hsealed'] at hagain
    exact .inr (passesOver_of_error rfl hagain)
  · rw [if_neg hsealed', if_pos (by rw [situation, t.hear_exchange]; exact hseen)] at hagain
    exact .inr (passesOver_of_more hagain)

/-- A reply to a planned phase seals it. -/
theorem hearsOnce_planned {phase : Phase} {said : Reading} {answered : PhaseSet} {x : Exchange}
    (hmeaning : ∀ s, s.session.sessionId = t.exchange.session.sessionId →
      t.protocol.read s payload = (Meaning.reply phase said).reading s)
    (h : t.exchanged payload = (x, { outcome := .done true, answered }))
    (hplanned : phase ∈ t.machine.plan.map Leg.phase) (hanswered : phase ∈ answered) :
    t.HearsOnce payload now := by
  obtain ⟨leg, hleg, rfl⟩ := List.mem_map.mp hplanned
  have hsealed := sealed_of_answer hwaits.toSound htight (by rw [h]) hleg (by rwa [h]) now
  have hagain := (reading_hear hmeaning now).trans (if_pos hsealed)
  exact .inr (passesOver_of_error rfl hagain)

omit htight in
/-- A reply to phases that are not planned is learned, and nothing else happens. -/
theorem hear_unplanned {answered : PhaseSet} {x : Exchange}
    (h : t.exchanged payload = (x, { outcome := .done true, answered }))
    (hsome : answered.isEmpty = false) (hnone : ∀ leg ∈ t.machine.plan, leg.phase ∉ answered) :
    t.hear payload now = { target := { t with exchange := x } } := by
  have hcomplete := hwaits.complete_unplanned hnone now
  rw [hear, h]
  dsimp only
  unfold follow goOn
  dsimp only
  rw [Engine.credited, hsome, if_neg Bool.false_ne_true, hcomplete, hwaits.not_finished,
    if_neg Bool.false_ne_true, if_neg fun h => h.2 rfl]
  rfl

omit htight in
/-- A list for a phase that is not planned is learned again, and what does not accumulate is
held already. -/
theorem hearsOnce_unplanned {phase : Phase} {facts : List Fact} (hentries : ∀ f ∈ facts, f.IsEntry)
    (hmeaning : ∀ s, s.session.sessionId = t.exchange.session.sessionId →
      t.protocol.read s payload
        = (Meaning.reply phase ⟨facts, .ok (.done (PhaseSet.ofList [phase]) true)⟩).reading s)
    (hopen : phase ∉ t.situation.sealed) (hunplanned : phase ∉ t.machine.plan.map Leg.phase)
    (hagain : ¬t.RecordsAgain payload) {x : Exchange}
    (hlearn : t.exchange.learnAll t.config.rulePolicy facts = (x, none))
    (happly : t.exchanged payload
      = (x, { outcome := .done true, answered := PhaseSet.ofList [phase] })) :
    t.HearsOnce payload now := by
  have hread : t.reading payload = ⟨facts, .ok (.done (PhaseSet.ofList [phase]) true)⟩ :=
    (reading_of_meaning hmeaning).trans (if_neg hopen)
  have hnone : ∀ leg ∈ t.machine.plan, leg.phase ∉ PhaseSet.ofList [phase] := by
    intro leg hleg hmem
    have hsame : leg.phase = phase := by simpa using PhaseSet.mem_ofList.mp hmem
    exact hunplanned (hsame ▸ List.mem_map_of_mem hleg)
  have hsome : (PhaseSet.ofList [phase]).isEmpty = false := by cases phase <;> rfl
  have hlost : ∀ f ∈ facts, ¬f.Accumulates t.config.rulePolicy := by
    intro f hf haccumulates
    refine hagain ⟨PhaseSet.ofList [phase], true, ?_, hnone, f, ?_, haccumulates⟩
    · rw [hread]
    · rw [hread]
      exact hf
  have hid : x.session.sessionId = t.exchange.session.sessionId := by
    have hkept := t.exchange.learnAll_sessionId t.config.rulePolicy facts
    rwa [hlearn] at hkept
  have hread' : Target.reading { t with exchange := x } payload
      = ⟨facts, .ok (.done (PhaseSet.ofList [phase]) true)⟩ :=
    (hmeaning _ hid).trans (if_neg hopen)
  refine .inr ⟨none, ?_⟩
  rw [hear_unplanned hwaits happly hsome hnone]
  refine hear_unplanned (t := { t with exchange := x }) hwaits ?_ hsome hnone
  rw [exchanged_of_reading hread', Exchange.apply]
  dsimp only
  rw [Exchange.learnAll_unaccumulated hentries hlost hlearn]
  rfl

/-- A reply does nothing when it comes again, unless it is recorded again. -/
theorem hearsOnce_reply {phase : Phase} {said : Reading} (hanswers : Answers phase said)
    (hmeaning : ∀ s, s.session.sessionId = t.exchange.session.sessionId →
      t.protocol.read s payload = (Meaning.reply phase said).reading s)
    (hagain : ¬t.RecordsAgain payload) : t.HearsOnce payload now := by
  have hread := reading_of_meaning hmeaning
  dsimp only [Meaning.reading] at hread
  by_cases hsealed : phase ∈ t.situation.sealed
  · rw [if_pos hsealed] at hread
    exact hearsOnce_of_error hread
  rw [if_neg hsealed] at hread
  have hexchanged := exchanged_of_reading hread
  cases hanswers with
  | nothing fault => exact hearsOnce_of_error hread
  | broken facts hfatal =>
    obtain ⟨kind, hkind, houtcome⟩ := t.exchange.apply_broken t.config.rulePolicy hfatal
    exact hearsOnce_of_fatal hkind (hexchanged ▸ houtcome)
  | status facts hphase hanswered =>
    rcases t.exchange.apply_done t.config.rulePolicy facts _ with
      ⟨kind, hkind, houtcome⟩ | ⟨x, -, happly⟩
    · exact hearsOnce_of_fatal hkind (hexchanged ▸ houtcome)
    · exact hearsOnce_planned hwaits htight hmeaning (hexchanged.trans happly)
        (hphase ▸ htight.status) hanswered
  | @entries facts hentries =>
    have hanswered : phase ∈ PhaseSet.ofList [phase] := PhaseSet.mem_ofList.mpr (by simp)
    rcases t.exchange.apply_done t.config.rulePolicy facts (PhaseSet.ofList [phase]) with
      ⟨kind, hkind, houtcome⟩ | ⟨x, hlearn, happly⟩
    · exact hearsOnce_of_fatal hkind (hexchanged ▸ houtcome)
    by_cases hplanned : phase ∈ t.machine.plan.map Leg.phase
    · exact hearsOnce_planned hwaits htight hmeaning (hexchanged.trans happly) hplanned hanswered
    · exact hearsOnce_unplanned hwaits hentries hmeaning hsealed hplanned hagain hlearn
        (hexchanged.trans happly)

/-- **Hearing the same again.** A payload that is no piece of a split reply does nothing
when it comes again at once, unless it is recorded again. -/
theorem hearsOnce (hsingle : t.protocol = .a2s → ¬Protocol.A2s.splitHeader <+: payload)
    (hagain : ¬t.RecordsAgain payload) (now : Instant) : t.HearsOnce payload now := by
  obtain ⟨meaning, hregular, hmeaning⟩ :=
    t.protocol.exists_meaning t.exchange.session.sessionId hsingle
  cases meaning with
  | broken fault => exact hearsOnce_of_error (reading_of_meaning hmeaning)
  | token value => exact hearsOnce_token hwaits htight hmeaning
  | reply phase said => exact hearsOnce_reply hwaits htight hregular hmeaning hagain
  | datagram number final facts fault => exact hearsOnce_datagram hmeaning

omit hwaits in
/-- What answers no planned phase is a reply to some other phase, and reads the same as long
as the same phases are sealed. -/
theorem reply_of_unplanned (hsingle : t.protocol = .a2s → ¬Protocol.A2s.splitHeader <+: payload)
    {facts : List Fact} {answered : PhaseSet} {sealing : Bool}
    (hread : t.reading payload = ⟨facts, .ok (.done answered sealing)⟩)
    (hnone : ∀ leg ∈ t.machine.plan, leg.phase ∉ answered) :
    sealing = true ∧ answered.isEmpty = false ∧
      ∀ s, s.session.sessionId = t.exchange.session.sessionId →
        s.sealed = t.machine.sealedPhases → t.protocol.read s payload = t.reading payload := by
  obtain ⟨meaning, hregular, hmeaning⟩ :=
    t.protocol.exists_meaning t.exchange.session.sessionId hsingle
  have hsays := (reading_of_meaning hmeaning).symm.trans hread
  -- the status is planned, so it is not what is answered
  obtain ⟨status, hstatus, hplanned⟩ := List.mem_map.mp htight.status
  have hnot : .status ∉ answered := hplanned ▸ hnone status hstatus
  cases meaning with
  | broken fault => cases hsays
  | token value =>
    dsimp only [Meaning.reading] at hsays
    split at hsays
    · -- the challenge is being asked, so it is planned too
      next hcurrent =>
      obtain ⟨leg, hleg, hphase⟩ := Option.map_eq_some_iff.mp hcurrent
      split at hsays
      · cases hsays
      · cases hsays
        refine absurd ?_ (hnone leg (List.mem_of_getElem? hleg))
        rw [hphase]
        decide
    · split at hsays <;> cases hsays
  | datagram number final told fault =>
    dsimp only [Meaning.reading] at hsays
    split at hsays
    · cases hsays
    · split at hsays
      · cases hsays
      · cases fault with
        | some fault => cases hsays
        | none =>
          dsimp only at hsays
          split at hsays
          · cases hsays
            exact absurd (by decide) hnot
          · cases hsays
  | reply phase said =>
    dsimp only [Meaning.reading] at hsays
    split at hsays
    · cases hsays
    · next hopen =>
      subst hsays
      cases hregular with
      | status _ hphase hanswered => exact absurd (hphase ▸ hanswered) hnot
      | entries hentries =>
        refine ⟨rfl, by cases phase <;> rfl, fun s hs hsealed => ?_⟩
        rw [hmeaning s hs, hread]
        refine if_neg ?_
        rw [hsealed]
        exact hopen

/-- A reply that is recorded again ends the target when it comes again, or changes it. -/
theorem hear_recordsAgain (hsingle : t.protocol = .a2s → ¬Protocol.A2s.splitHeader <+: payload)
    (h : t.RecordsAgain payload) {now : Instant} (hgoesOn : (t.hear payload now).fate = .goesOn)
    (hgoesOn' : ((t.hear payload now).target.hear payload now).fate = .goesOn) :
    ((t.hear payload now).target.hear payload now).target ≠ (t.hear payload now).target := by
  obtain ⟨answered, sealing, hending, hnone, haccumulates⟩ := h
  rcases hread : t.reading payload with ⟨facts, ending⟩
  rw [hread] at hending haccumulates
  obtain rfl : ending = .ok (.done answered sealing) := hending
  obtain ⟨rfl, hsome, hsame⟩ := reply_of_unplanned htight hsingle hread hnone
  -- the first time, what is told is learned and nothing else happens
  have hexchanged := exchanged_of_reading hread
  rcases t.exchange.apply_done t.config.rulePolicy facts answered with
    ⟨kind, hkind, houtcome⟩ | ⟨x, hlearn, happly⟩
  · rw [hear_fatal hkind (hexchanged ▸ houtcome)] at hgoesOn
    cases hgoesOn
  have hid : x.session.sessionId = t.exchange.session.sessionId := by
    have hkept := t.exchange.learnAll_sessionId t.config.rulePolicy facts
    rwa [hlearn] at hkept
  rw [hear_unplanned hwaits (hexchanged.trans happly) hsome hnone] at hgoesOn' ⊢
  dsimp only at hgoesOn' ⊢
  -- the second time, there is no room for it, or more is held then
  have hread' : Target.reading { t with exchange := x } payload
      = ⟨facts, .ok (.done answered true)⟩ := (hsame _ hid rfl).trans hread
  have hexchanged' := exchanged_of_reading hread'
  rcases x.apply_done t.config.rulePolicy facts answered with
    ⟨kind, hkind, houtcome⟩ | ⟨x', hlearn', happly'⟩
  · rw [hear_fatal hkind (hexchanged' ▸ houtcome)] at hgoesOn'
    cases hgoesOn'
  rw [hear_unplanned (t := { t with exchange := x }) hwaits (hexchanged'.trans happly') hsome hnone]
  intro heq
  have hgrows := Exchange.held_learnedAll_lt haccumulates x
  have hkept := Exchange.learnAll_of_kept (congrArg Prod.snd hlearn')
  rw [hlearn', Prod.mk.injEq] at hkept
  obtain rfl : x' = x := congrArg Target.exchange heq
  rw [← hkept.1] at hgrows
  exact Nat.lt_irrefl _ hgrows

end Meanings

end Target

/-! ## Receiving the same again -/

theorem Meaning.reading_ne_piece {meaning : Meaning} (h : meaning.Regular) (s : Situation)
    (series : UInt32) (index count : Nat) (chunk : List UInt8) :
    (meaning.reading s).ending ≠ .ok (.piece series index count chunk) := by
  cases meaning with
  | broken fault => nofun
  | token value =>
    dsimp only [reading]
    split
    · split <;> nofun
    · split <;> nofun
  | reply phase said =>
    dsimp only [reading]
    split
    · nofun
    · cases h <;> nofun
  | datagram number final facts fault =>
    dsimp only [reading]
    split
    · nofun
    · split
      · nofun
      · cases fault with
        | none => dsimp only; split <;> nofun
        | some fault => nofun

/-- Only a piece makes a reply whole. -/
theorem Exchange.joined_apply (x : Exchange) (policy : DuplicatePolicy) {reading : Reading}
    (h : ∀ series index count chunk, reading.ending ≠ .ok (.piece series index count chunk)) :
    (x.apply policy reading).2.joined = none := by
  rcases x.apply_cases policy reading with
    ⟨x', fault, -, happly⟩ | ⟨x', fault, -, -, happly⟩ | ⟨x', ending, -, hending, happly⟩
  · rw [happly]
    rfl
  · rw [happly]
    rfl
  · rw [happly]
    cases ending with
    | done answered sealing => rfl
    | more resend => rfl
    | piece series index count chunk => exact absurd hending (h series index count chunk)

/-- A payload that is no piece of a split reply makes none whole. -/
theorem Target.waiting?_hear {t : Target} {payload : List UInt8}
    (hsingle : t.protocol = .a2s → ¬Protocol.A2s.splitHeader <+: payload) (now : Instant) :
    (t.hear payload now).waiting? = none := by
  obtain ⟨meaning, hregular, hmeaning⟩ :=
    t.protocol.exists_meaning t.exchange.session.sessionId hsingle
  have hjoined : (t.hear payload now).joined = none := by
    rw [t.hear_joined, exchanged_of_reading (reading_of_meaning hmeaning)]
    exact t.exchange.joined_apply _ (meaning.reading_ne_piece hregular t.situation)
  unfold Reaction.waiting?
  split
  · exact hjoined
  · rfl

namespace Engine

variable {e : Engine} {t : Target}

/-- Where no broadcast is active, a datagram from an address that no target has changes
nothing. -/
theorem receive_stranger (hunicast : ∀ t ∈ e.targets, t.mode = .unicast) {sender : Address}
    (hat : e.idAt? sender = none) (payload : List UInt8) (now : Instant) :
    e.receive sender payload now = e := by
  have hnone : (e.targets.find? fun t => t.mode == .broadcast && t.address.port == sender.port)
      = none := by
    rw [List.find?_eq_none]
    intro t ht
    rw [hunicast t ht]
    simp
  have hroute : e.route sender = (e, none) := by rw [route, hat, hnone]
  rw [receive, hroute]

/-- A payload that its target passes over leaves nothing behind but a diagnostic. -/
theorem enact_passedOver (h : e.Holds t) (fault : Option (ErrorKind × String)) :
    e.enact { target := t, fault }
      = { e with diagnostics := (e.enact { target := t, fault }).diagnostics } := by
  have henact : e.enact { target := t, fault } = e.passOn { target := t, fault } := by
    change (e.passOn { target := t, fault }).put t = _
    rw [← passOn_put, h.alone]
  rw [henact]
  unfold passOn
  rcases fault with _ | ⟨kind, message⟩
  · rfl
  · dsimp only
    unfold diagnose
    split
    · rfl
    · rfl

section Twice

variable (hkept : e.WellKept) (hunicast : ∀ t ∈ e.targets, t.mode = .unicast)
  (hmem : t ∈ e.targets) {payload : List UInt8}
  (hsingle : t.protocol = .a2s → ¬Protocol.A2s.splitHeader <+: payload)
  (now : Instant)

include hkept hunicast hmem hsingle

/-- What is no piece of a split reply is enacted as the target hears it. -/
theorem receive_hear : e.receive t.address payload now = e.enact (t.hear payload now) := by
  have hat : e.idAt? t.address = some t.id :=
    (hkept.indexed _ _).mpr ⟨t, hkept.target?_of_mem hmem, hunicast t hmem, rfl⟩
  rw [receive_eq (hkept.holds hmem) hkept.quiet hat payload now,
    Target.digest_of_none (t.waiting?_hear hsingle now)]
  rfl

theorem unicast_receive : ∀ t' ∈ (e.receive t.address payload now).targets, t'.mode = .unicast := by
  have hid : (t.hear payload now).target.id = t.id := t.react_id (.hear payload now)
  -- in the place of the target stands the same with other contents
  have hput : ∀ t' ∈ (e.put (t.hear payload now).target).targets, t'.mode = .unicast := by
    intro t' ht'
    obtain ⟨old, hold, rfl⟩ := List.mem_map.mp ht'
    split
    · exact (t.react_mode (.hear payload now)).trans (hunicast t hmem)
    · exact hunicast old hold
  rw [receive_hear hkept hunicast hmem hsingle,
    (sameRegister_enact (hkept.holds hmem) hid).targets]
  split
  · exact hput
  · exact fun t' ht' => hput t' (List.mem_filter.mp ht').1

theorem target?_receive_self : (e.receive t.address payload now).target? t.id
    = if (t.hear payload now).fate = .goesOn then some (t.hear payload now).target else none := by
  rw [receive_hear hkept hunicast hmem hsingle]
  exact target?_enact_self (hkept.holds hmem) (t.react_id (.hear payload now))

/-- A target that has gone on hears the payload again as it is then. -/
theorem receive_again (hgoesOn : (t.hear payload now).fate = .goesOn) :
    (e.receive t.address payload now).receive t.address payload now
      = (e.receive t.address payload now).enact
          ((t.hear payload now).target.hear payload now) := by
  have hfound := target?_receive_self hkept hunicast hmem hsingle now
  rw [if_pos hgoesOn] at hfound
  have haddress : (t.hear payload now).target.address = t.address :=
    t.react_address (.hear payload now)
  have hsingle' : (t.hear payload now).target.protocol = .a2s →
      ¬Protocol.A2s.splitHeader <+: payload :=
    fun h => hsingle ((t.react_protocol (.hear payload now)).symm.trans h)
  have hagain := receive_hear (hkept.after (.receive t.address payload now))
    (unicast_receive hkept hunicast hmem hsingle now) (target?_mem hfound).1 hsingle' now
  rwa [haddress] at hagain

/-- Where the target is gone, nobody else has its address. -/
theorem receive_gone (hgone : (t.hear payload now).fate ≠ .goesOn) :
    (e.receive t.address payload now).receive t.address payload now
      = e.receive t.address payload now := by
  refine receive_stranger (unicast_receive hkept hunicast hmem hsingle now) ?_ payload now
  have hid : (t.hear payload now).target.id = t.id := t.react_id (.hear payload now)
  have haddress : (t.hear payload now).target.address = t.address :=
    t.react_address (.hear payload now)
  have hregister := sameRegister_enact (hkept.holds hmem) hid
  rw [if_neg hgone] at hregister
  rw [receive_hear hkept hunicast hmem hsingle, hregister.idAt?, idAt?_remove]
  refine if_pos ⟨?_, haddress.symm⟩
  rw [haddress, hid]
  exact (hkept.indexed _ _).mpr ⟨t, hkept.target?_of_mem hmem, hunicast t hmem, rfl⟩

end Twice

/-- **Duplicates are harmless.** In an engine that a run leads to and that has no broadcast
target, a datagram that is no piece of a split reply comes twice, at the same instant, for
an active target. The second one leaves everything as it was after the first: targets,
index, outbox and reports. Only diagnostics may be added. The one exception is a reply that
is recorded again, as long as the target is still there to record it. -/
theorem repeated_harmless_iff (h : e.Reachable) (hunicast : ∀ t ∈ e.targets, t.mode = .unicast)
    (hmem : t ∈ e.targets) {payload : List UInt8}
    (hsingle : t.protocol = .a2s → ¬Protocol.A2s.splitHeader <+: payload) (now : Instant) :
    let once := e.receive t.address payload now
    let twice := once.receive t.address payload now
    twice = { once with diagnostics := twice.diagnostics } ↔
      (t.RecordsAgain payload → once.target? t.id = none) := by
  intro once twice
  have hkept := h.wellKept
  have hwaits := h.waits t hmem
  have htight := h.tight t hmem
  have hfound : once.target? t.id = _ := target?_receive_self hkept hunicast hmem hsingle now
  by_cases hgoesOn : (t.hear payload now).fate = .goesOn
  · rw [if_pos hgoesOn] at hfound
    have hholds : once.Holds (t.hear payload now).target :=
      (hkept.after (.receive t.address payload now)).holds (target?_mem hfound).1
    have htwice : twice = once.enact _ := receive_again hkept hunicast hmem hsingle now hgoesOn
    rw [hfound]
    constructor
    · -- what is recorded again is seen in the target, or the target has no room for it
      intro hsame hagain
      have hid : (t.hear payload now).target.id = t.id := t.react_id (.hear payload now)
      have hheard : twice.target? t.id = some (t.hear payload now).target := by
        rw [target?, congrArg Engine.targets hsame]
        exact hfound
      have hreact := target?_enact_self (r := (t.hear payload now).target.hear payload now) hholds
        ((t.hear payload now).target.react_id (.hear payload now))
      rw [← htwice, hid, hheard] at hreact
      split at hreact
      · next hgoesOn' =>
        exact absurd (Option.some.inj hreact).symm
          (Target.hear_recordsAgain hwaits htight hsingle hagain hgoesOn hgoesOn')
      · cases hreact
    · -- the target has what it needs to pass the second one over
      intro hagain
      have honce : ¬t.RecordsAgain payload := fun h => Option.some_ne_none _ (hagain h)
      rcases Target.hearsOnce hwaits htight hsingle honce now with
        ⟨status, hover⟩ | ⟨fault, hpasses⟩
      · rw [hgoesOn] at hover
        cases hover
      · rw [htwice, hpasses]
        exact enact_passedOver hholds fault
  · rw [if_neg hgoesOn] at hfound
    have htwice : twice = once := receive_gone hkept hunicast hmem hsingle now hgoesOn
    rw [htwice]
    exact iff_of_true rfl fun _ => hfound

/-- A query for the status alone. -/
def statusOnly (policy : DuplicatePolicy) : List Call :=
  [.add .unicast "a2s" ⟨"192.0.2.1", 27015⟩ { rulePolicy := policy } 0 0]

/-- A reply with rules, which nobody asked for; one name stands in it twice. -/
def unaskedRules : List UInt8 :=
  [0xFF, 0xFF, 0xFF, 0xFF, 0x45, 2, 0, 0x61, 0, 0x31, 0, 0x61, 0, 0x32, 0]

/-- Where the last value of a rule counts, the rules are learned twice, and the second time
changes nothing. -/
theorem repeated_harmless_unasked :
    let once := (run (statusOnly .overwrite)).receive ⟨"192.0.2.1", 27015⟩ unaskedRules 1
    let twice := once.receive ⟨"192.0.2.1", 27015⟩ unaskedRules 1
    twice = { once with diagnostics := twice.diagnostics } ∧
    once.targets.map (fun t => t.exchange.server.rules) = [[⟨"a", "2"⟩]] := by
  obtain ⟨t, htargets, hfacts, hpolicy, hmode, haddress⟩ : ∃ t,
      (run (statusOnly .overwrite)).targets = [t] ∧
      (t.reading unaskedRules).facts = [.rule "a" "1", .rule "a" "2"] ∧
      t.config.rulePolicy = .overwrite ∧ t.mode = .unicast ∧ t.address = ⟨"192.0.2.1", 27015⟩ :=
    ⟨_, rfl, by decide +kernel, rfl, rfl, rfl⟩
  have hunicast : ∀ t ∈ (run (statusOnly .overwrite)).targets, t.mode = .unicast := by
    rw [htargets]
    simpa using hmode
  have hmem : t ∈ (run (statusOnly .overwrite)).targets := by
    rw [htargets]
    exact List.mem_singleton_self t
  -- rules do not accumulate where the last value counts
  have hagain : ¬t.RecordsAgain unaskedRules := by
    rintro ⟨answered, sealing, -, -, f, hf, haccumulates⟩
    rw [hfacts] at hf
    rw [hpolicy] at haccumulates
    rcases List.mem_cons.mp hf with rfl | hf
    · cases haccumulates
    · obtain rfl := List.mem_singleton.mp hf
      cases haccumulates
  have hharmless := (repeated_harmless_iff ⟨statusOnly .overwrite, rfl⟩ hunicast hmem
    (fun _ => by decide : t.protocol = .a2s → ¬Protocol.A2s.splitHeader <+: unaskedRules)
    1).mpr fun h => absurd h hagain
  rw [haddress] at hharmless
  exact ⟨hharmless, by decide +kernel⟩

/-- A reply with one player. -/
def unaskedPlayer : List UInt8 :=
  [0xFF, 0xFF, 0xFF, 0xFF, 0x44, 1, 0, 0x41, 0x64, 0, 5, 0, 0, 0, 0, 0, 0x80, 0x3F]

/-- A player that nobody asked for is recorded again when the datagram is duplicated. -/
theorem repeated_recorded_again :
    let once := (run (statusOnly .keepFirst)).receive ⟨"192.0.2.1", 27015⟩ unaskedPlayer 1000
    let twice := once.receive ⟨"192.0.2.1", 27015⟩ unaskedPlayer 1000
    (∀ t ∈ (run (statusOnly .keepFirst)).targets, t.mode = .unicast) ∧
    ¬Protocol.A2s.splitHeader <+: unaskedPlayer ∧
    once.targets.map (fun t => t.exchange.server.players.map Player.number) = [[0]] ∧
    twice.targets.map (fun t => t.exchange.server.players.map Player.number) = [[0, 1]] ∧
    twice ≠ { once with diagnostics := twice.diagnostics } := by
  decide +kernel

end Engine

end ServerProbe
