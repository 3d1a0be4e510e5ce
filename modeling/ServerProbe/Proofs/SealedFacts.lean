/-
What is sealed lasts.

In the query of Source and GoldSrc servers every fact about the server stands in the reply to
some phase, and such a reply is read only while its phase is open. So as long as a phase is
sealed nothing is noted that can stand in a reply to it alone (`A2s.yields_reply`): name, map,
game, the numbers of players and the revision stand in replies to the status, players in
replies to the players, and rules in replies to the status and to the rules, so they last once
both are sealed. A phase that is sealed stays so, and what learning does not touch nothing else
touches. Hence every target leads to the next one with all of this kept (`LeadsTo.react`), and
by induction along its life so does every target to every later one and to its report.
-/
import ServerProbe.Proofs.RepeatedFacts
import ServerProbe.Proofs.Reporting
import ServerProbe.Proofs.Sealing
import ServerProbe.Proofs.Sequencing

set_option autoImplicit false

namespace ServerProbe

open Reply

/-! ## What is noted while phases are sealed -/

namespace Protocol.A2s

/-- Whether a fact can be noted while some phases are sealed: it stands in a reply to a phase
that is open, or it is a token, which may be renewed at any time. -/
def Notable (closed : PhaseSet) (f : Fact) : Prop :=
  ∃ phase, StandsIn phase f ∧ (phase ∉ closed ∨ phase = .challenge)

theorem notable_token (closed : PhaseSet) (value : Int32) : Notable closed (.token value) :=
  ⟨.challenge, .token value, .inr rfl⟩

theorem notes_answer {s : Situation} {phase : Phase} {body : Reply Unit}
    (hbody : NotesOn phase body) :
    Yields (Notable s.sealed) (fun _ => True) (answer s phase body) :=
  (yields_answer hbody).mono (fun _ hf => ⟨phase, hf.2, .inl hf.1⟩) fun _ _ => trivial

theorem notes_challenge (s : Situation) :
    Yields (Notable s.sealed) (fun _ => True) (challenge s) :=
  yields_bind (yields_read _) fun token => yields_token (notable_token _ token) s

theorem notes_single (s : Situation) : Yields (Notable s.sealed) (fun _ => True) (single s) := by
  unfold single
  refine yields_bind (yields_read _) fun kind => yields_ite (notes_challenge s) ?_
  refine yields_ite (notes_answer ?_) (yields_ite (notes_answer ?_) ?_)
  · exact yields_bind notesOn_status fun _ => yields_note (.revision _)
  · exact yields_bind notesOn_goldSrcStatus fun _ => yields_note (.revision _)
  refine yields_ite (notes_answer ?_) (yields_ite (notes_answer ?_) (yields_fail _))
  · exact yields_bind (yields_read _) fun _ => notesOn_rules _
  · exact yields_bind (yields_read _) fun _ => notesOn_players _

/-- **Every datagram notes only what may be noted.** A piece of a split reply notes nothing. -/
theorem yields_reply (s : Situation) : Yields (Notable s.sealed) (fun _ => True) (reply s) := by
  unfold reply
  refine yields_bind (yields_read _) fun marker => yields_ite (notes_single s) ?_
  refine yields_ite ?_ (yields_fail _)
  unfold split
  refine yields_bind (yields_read _) fun series => yields_ite (yields_fail _) ?_
  refine yields_bind (yields_place _ _) fun found => ?_
  exact yields_ite (yields_fail _) (yields_bind yields_takeRest fun _ => yields_pure trivial)

end Protocol.A2s

/-! ## What an exchange keeps -/

/-- What a reply to the status says about a server, its rules apart. -/
structure Headline where
  name : Option String
  map : Option String
  game : Option String
  numPlayers : UInt32
  maxPlayers : UInt32
  deriving Repr, DecidableEq

namespace Server

/-- What is known of the headline of a server. -/
def headline (s : Server) : Headline := ⟨s.name, s.map, s.game, s.numPlayers, s.maxPlayers⟩

/-- Whether what is known of a server is kept, as far as some phases answer it. -/
structure Keeps (closed : PhaseSet) (s s' : Server) : Prop where
  headline : .status ∈ closed → s'.headline = s.headline
  players : .players ∈ closed → s'.players = s.players
  rules : .status ∈ closed → .rules ∈ closed → s'.rules = s.rules

theorem Keeps.refl (closed : PhaseSet) (s : Server) : s.Keeps closed s :=
  ⟨fun _ => rfl, fun _ => rfl, fun _ _ => rfl⟩

/-- What is kept first and then kept with more phases is kept. -/
theorem Keeps.trans {closed closed' : PhaseSet} {s s' s'' : Server} (h : s.Keeps closed s')
    (h' : s'.Keeps closed' s'') (hsub : ∀ phase ∈ closed, phase ∈ closed') :
    s.Keeps closed s'' where
  headline := fun hs => (h'.headline (hsub _ hs)).trans (h.headline hs)
  players := fun hp => (h'.players (hsub _ hp)).trans (h.players hp)
  rules := fun hs hr => (h'.rules (hsub _ hs) (hsub _ hr)).trans (h.rules hs hr)

end Server

namespace Exchange

open Protocol.A2s (Notable StandsIn)

/-- Whether what is known is kept, as far as some phases answer it. -/
structure Keeps (closed : PhaseSet) (x x' : Exchange) : Prop where
  server : x.server.Keeps closed x'.server
  revision : .status ∈ closed → x'.session.revision = x.session.revision

theorem Keeps.refl (closed : PhaseSet) (x : Exchange) : x.Keeps closed x :=
  ⟨.refl closed x.server, fun _ => rfl⟩

theorem Keeps.trans {closed closed' : PhaseSet} {x x' x'' : Exchange} (h : x.Keeps closed x')
    (h' : x'.Keeps closed' x'') (hsub : ∀ phase ∈ closed, phase ∈ closed') :
    x.Keeps closed x'' where
  server := h.server.trans h'.server hsub
  revision := fun hs => (h'.revision (hsub _ hs)).trans (h.revision hs)

theorem learn_rule (policy : DuplicatePolicy) (x : Exchange) (name value : String) :
    ∃ rules, (x.learn policy (.rule name value)).1 = { x with server.rules := rules } := by
  rw [learn, Server.addRule_eq]
  split
  · exact ⟨_, rfl⟩
  · exact ⟨_, rfl⟩

theorem learn_newcomer (policy : DuplicatePolicy) (x : Exchange) (fields : List PlayerField) :
    ∃ players number, (x.learn policy (.newcomer fields)).1
      = { x with server.players := players, session.nextPlayer := number } := by
  rw [learn, Server.addPlayer]
  split
  · exact ⟨_, _, rfl⟩
  · exact ⟨_, _, rfl⟩

/-- **What a fact does not stand in a reply to,** learning it leaves alone. -/
theorem Keeps.learn {closed : PhaseSet} {f : Fact} (h : Notable closed f)
    (policy : DuplicatePolicy) (x : Exchange) : x.Keeps closed (x.learn policy f).1 := by
  obtain ⟨phase, hstands, hopen⟩ := h
  cases hstands with
  | token value => exact ⟨.refl closed x.server, fun _ => rfl⟩
  | newcomer fields =>
    obtain ⟨players, number, h⟩ := learn_newcomer policy x fields
    have hplayers : .players ∉ closed := hopen.resolve_right nofun
    rw [h]
    exact ⟨⟨fun _ => rfl, fun hp => absurd hp hplayers, fun _ _ => rfl⟩, fun _ => rfl⟩
  | rule name value =>
    obtain ⟨rules, h⟩ := learn_rule policy x name value
    have hrules : .rules ∉ closed := hopen.resolve_right nofun
    rw [h]
    exact ⟨⟨fun _ => rfl, fun _ => rfl, fun _ hr => absurd hr hrules⟩, fun _ => rfl⟩
  | statusRule name value =>
    obtain ⟨rules, h⟩ := learn_rule policy x name value
    have hstatus : .status ∉ closed := hopen.resolve_right nofun
    rw [h]
    exact ⟨⟨fun _ => rfl, fun _ => rfl, fun hs _ => absurd hs hstatus⟩, fun _ => rfl⟩
  | _ =>
    -- the others are about the headline and the revision
    have hstatus : .status ∉ closed := hopen.resolve_right nofun
    exact ⟨⟨fun hs => absurd hs hstatus, fun _ => rfl, fun _ _ => rfl⟩,
      fun hs => absurd hs hstatus⟩

/-- **A payload keeps what the sealed phases answer.** -/
theorem Keeps.receive (x : Exchange) (params : RequestParams) (current : Option Phase)
    (closed : PhaseSet) (payload : List UInt8) :
    x.Keeps closed (x.receive .a2s params current closed payload).1 := by
  have hfacts : ∀ f ∈ (Protocol.a2s.read ⟨current, closed, x.session⟩ payload).facts,
      Notable closed f := by
    rw [Protocol.read, readAll_eq]
    exact ((Protocol.A2s.yields_reply ⟨current, closed, x.session⟩).reading _).1
  rw [Exchange.receive_eq]
  generalize Protocol.a2s.read ⟨current, closed, x.session⟩ payload = reading at hfacts ⊢
  have hlearned : x.Keeps closed (x.learnAll params.rulePolicy reading.facts).1 :=
    learnAll_keeps (P := x.Keeps closed)
      (fun x' f hf hx' => hx'.trans (.learn (hfacts f hf) params.rulePolicy x') fun _ h => h)
      (.refl closed x)
  constructor
  · rw [apply_server]
    exact hlearned.server
  · rw [apply_session]
    exact hlearned.revision

end Exchange

/-! ## What a target keeps -/

namespace Target

/-- Whether a target can have become another one, as far as what is sealed is concerned: it
stays sealed, and what Source and GoldSrc servers have answered with it is kept. -/
structure LeadsTo (t t' : Target) : Prop where
  protocol : t'.protocol = t.protocol
  staysSealed : ∀ phase ∈ t.machine.sealedPhases, phase ∈ t'.machine.sealedPhases
  kept : t.protocol = .a2s → t.exchange.Keeps t.machine.sealedPhases t'.exchange

theorem LeadsTo.refl (t : Target) : t.LeadsTo t :=
  ⟨rfl, fun _ h => h, fun _ => .refl _ _⟩

theorem LeadsTo.trans {t t' t'' : Target} (h : t.LeadsTo t') (h' : t'.LeadsTo t'') :
    t.LeadsTo t'' where
  protocol := h'.protocol.trans h.protocol
  staysSealed := fun phase hphase => h'.staysSealed phase (h.staysSealed phase hphase)
  kept := fun hp => (h.kept hp).trans (h'.kept (h.protocol.trans hp)) h.staysSealed

/-- **Whatever happens to a target, what is sealed is kept.** -/
theorem LeadsTo.react {t : Target} (hsound : t.machine.Sound) (cue : Cue) :
    t.LeadsTo (t.react cue).target where
  protocol := t.react_protocol cue
  staysSealed := by
    intro phase hphase
    obtain ⟨leg, hleg, hleg', hstatus⟩ := Machine.mem_sealedPhases.mp hphase
    have hstays := (t.react_path cue).done_stays hsound hleg (by rw [hstatus]; rfl)
    exact Machine.mem_sealedPhases.mpr ⟨leg, hstays, hleg', hstatus⟩
  kept := by
    intro hp
    rcases t.react_exchange cue with h | ⟨payload, now, -, h⟩
    · rw [h]
      exact .refl _ _
    · rw [h, exchanged, hp]
      exact .receive _ _ _ _ payload

/-- Whether a target is in order and what it was led to it, each stage to the next ones. -/
structure Heir (t : Target) (past : List Target) : Prop where
  sound : t.machine.Sound
  ordered : past.Pairwise LeadsTo
  leads : ∀ s ∈ past, s.LeadsTo t

end Target

/-- What a target was before and after some moments. -/
def stagesOf (past : List Moment) : List Target :=
  past.flatMap fun m => [m.target, m.reaction.target]

theorem stagesOf_concat (past : List Moment) (m : Moment) :
    stagesOf (past ++ [m]) = stagesOf past ++ [m.target, m.reaction.target] := by
  rw [stagesOf, List.flatMap_append, List.flatMap_singleton, stagesOf]

/-- A moment adds two stages. -/
theorem Target.Heir.react {m : Moment} {past : List Target} (h : m.target.Heir past) :
    m.reaction.target.Heir (past ++ [m.target, m.reaction.target]) := by
  have hstep : m.target.LeadsTo m.reaction.target := .react h.sound m.cue
  refine ⟨(m.target.react_path m.cue).sound h.sound, ?_, ?_⟩
  · refine List.pairwise_append.mpr ⟨h.ordered, List.pairwise_pair.mpr hstep, ?_⟩
    intro s hs s' hs'
    rcases List.mem_pair.mp hs' with rfl | rfl
    · exact h.leads s hs
    · exact (h.leads s hs).trans hstep
  · intro s hs
    rcases List.mem_append.mp hs with hpast | hlast
    · exact (h.leads s hpast).trans hstep
    · rcases List.mem_pair.mp hlast with rfl | rfl
      · exact hstep
      · exact .refl _

namespace Life

variable {newborn : Target} {past : List Moment}

/-- **Every stage of a life leads to what the target is.** -/
theorem heir {t : Target} (h : Life newborn past (some t)) (hsound : newborn.machine.Sound) :
    t.Heir (newborn :: stagesOf past) := by
  refine h.induction_on (P := fun past t => t.Heir (newborn :: stagesOf past)) ?_ ?_ ?_
  · refine ⟨hsound, List.pairwise_singleton _ _, fun s hs => ?_⟩
    obtain rfl := List.mem_singleton.mp hs
    exact .refl s
  · intro past t responders ih
    exact ⟨ih.sound, ih.ordered, fun s hs =>
      ⟨(ih.leads s hs).protocol, (ih.leads s hs).staysSealed, (ih.leads s hs).kept⟩⟩
  · intro past m ih
    rw [stagesOf_concat, ← List.cons_append]
    exact ih.react

theorem ordered {now : Option Target} (h : Life newborn past now)
    (hsound : newborn.machine.Sound) : (newborn :: stagesOf past).Pairwise Target.LeadsTo :=
  h.whole (P := fun past => (newborn :: stagesOf past).Pairwise Target.LeadsTo)
    (List.pairwise_singleton _ _) fun {before m} hbefore => by
      rw [stagesOf_concat, ← List.cons_append]
      exact (hbefore.heir hsound).react.ordered

/-- What a target is, it has been since its last stage, apart from who has answered it. -/
theorem latest {t : Target} (h : Life newborn past (some t)) :
    ∃ s ∈ newborn :: stagesOf past, t.LeadsTo s :=
  h.induction_on (P := fun past t => ∃ s ∈ newborn :: stagesOf past, t.LeadsTo s)
    ⟨newborn, List.mem_cons_self, .refl newborn⟩
    (fun _ ⟨s, hs, hleads⟩ => ⟨s, hs, hleads.protocol, hleads.staysSealed, hleads.kept⟩)
    fun {past m} _ => ⟨m.reaction.target, by simp [stagesOf_concat], .refl _⟩

end Life

namespace Engine

/-- What a target that was created in a run has been in it: what it was at first, and what it
was before and after everything that happened to it. -/
def stages (newborn : Target) (calls : List Call) : List Target :=
  newborn :: stagesOf (moments newborn.id (journal calls))

/-- The stages of a shorter run are stages of a longer one. -/
theorem stages_append (newborn : Target) (calls later : List Call) :
    stages newborn calls <+: stages newborn (calls ++ later) := by
  rw [stages, stages, journal_append, moments_append, stagesOf, stagesOf, List.flatMap_append,
    ← List.cons_append]
  exact List.prefix_append _ _

theorem sound_of_created {calls : List Call} {t : Target} (h : t ∈ created calls) :
    t.machine.Sound := by
  obtain ⟨event, hevent, hcreated⟩ := List.mem_filterMap.mp h
  exact (told_journal calls).newborn_sound hevent hcreated

/-- What a stage of a target has answered is in the report on it. -/
theorem keeps_of_report {calls : List Call} {newborn : Target} (h : newborn ∈ created calls)
    {report : Report} (hreport : report ∈ reportsOn newborn.id calls) :
    ∀ t ∈ stages newborn calls, t.protocol = .a2s →
      t.exchange.server.Keeps t.machine.sealedPhases report.server := by
  obtain ⟨past, m, hmoments, hlife, hm⟩ := life_of_reportsOn (life_of_created h) hreport
  obtain ⟨-, status, rfl⟩ := Moment.report?_eq hm
  have hheir := (hlife.heir (sound_of_created h)).react
  intro t ht hp
  rw [stages, hmoments, stagesOf_concat, ← List.cons_append] at ht
  -- the report only adds what is missing
  have hkept := ((hheir.leads t ht).kept hp).server
  exact ⟨hkept.headline, hkept.players, hkept.rules⟩

/-- **Sealed facts last.** In every run a target of Source and GoldSrc servers leads from each
of its stages to every later one, and to the report on it, so that what is sealed stays sealed
and what it answers is kept: name, map, game, numbers of players and revision once the status
is sealed, the players once the players are sealed, the rules once the status and the rules
are sealed. So it is from any call on to any later one. -/
theorem sealed_facts_last (calls : List Call) :
    (∀ newborn ∈ created calls,
      (stages newborn calls).Pairwise Target.LeadsTo ∧
      ∀ report ∈ reportsOn newborn.id calls, ∀ t ∈ stages newborn calls, t.protocol = .a2s →
        t.exchange.server.Keeps t.machine.sealedPhases report.server) ∧
    ∀ before later, before ++ later = calls → ∀ id t, (run before).target? id = some t →
      (∀ t', (run calls).target? id = some t' → t.LeadsTo t') ∧
      ∀ report ∈ reportsOn id calls, t.protocol = .a2s →
        t.exchange.server.Keeps t.machine.sealedPhases report.server := by
  refine ⟨fun newborn h => ?_, ?_⟩
  · exact ⟨(life_of_created h).ordered (sound_of_created h), fun report => keeps_of_report h⟩
  rintro before later rfl id t ht
  obtain ⟨event, hevent, newborn, hcreated, rfl⟩ := (told_journal before).created
    (ht ▸ Option.some_ne_none t)
  have hbefore : newborn ∈ created before := List.mem_filterMap.mpr ⟨event, hevent, hcreated⟩
  have hcalls : newborn ∈ created (before ++ later) := by
    rw [created, journal_append, List.filterMap_append]
    exact List.mem_append_left _ hbefore
  -- the target is one of its stages, and so one of the stages of the whole run
  obtain ⟨s, hs, hleads⟩ := (ht ▸ life_of_created hbefore).latest
  have hs' : s ∈ stages newborn (before ++ later) := (stages_append newborn before later).subset hs
  refine ⟨fun t' ht' => ?_, fun report hreport hp => ?_⟩
  · exact hleads.trans (((ht' ▸ life_of_created hcalls).heir (sound_of_created hcalls)).leads s hs')
  · have hkept := keeps_of_report hcalls hreport s hs' (hleads.protocol.trans hp)
    exact (hleads.kept hp).server.trans hkept hleads.staysSealed

/-- A query that has its status and its rules, and asks for the players. -/
def ruled : List Call :=
  [.add .unicast "a2s" ⟨"192.0.2.1", 27015⟩ { wantRules := true, wantPlayers := true } 0 0,
    .receive ⟨"192.0.2.1", 27015⟩ [0xFF, 0xFF, 0xFF, 0xFF, 0x41, 1, 0, 0, 0] 1,
    .receive ⟨"192.0.2.1", 27015⟩
      [0xFF, 0xFF, 0xFF, 0xFF, 0x49, 0, 0x6E, 0, 0x6D, 0, 10, 16, 1, 0x64, 0x6C] 2,
    .receive ⟨"192.0.2.1", 27015⟩ [0xFF, 0xFF, 0xFF, 0xFF, 0x45, 1, 0, 0x6B, 0, 0x76, 0] 3]

/-- Then come other rules, another status in the GoldSrc layout, a new token and the players. -/
def contradicted : List Call :=
  [.receive ⟨"192.0.2.1", 27015⟩ [0xFF, 0xFF, 0xFF, 0xFF, 0x45, 1, 0, 0x6B, 0, 0x77, 0] 4,
    .receive ⟨"192.0.2.1", 27015⟩
      [0xFF, 0xFF, 0xFF, 0xFF, 0x6D, 0x61, 0, 0x62, 0, 0x63, 0, 0x64, 0, 0x65, 0, 5, 9, 47,
        0x64, 0x6C, 0, 0, 1, 0] 5,
    .receive ⟨"192.0.2.1", 27015⟩ [0xFF, 0xFF, 0xFF, 0xFF, 0x41, 2, 0, 0, 0] 6,
    .receive ⟨"192.0.2.1", 27015⟩
      [0xFF, 0xFF, 0xFF, 0xFF, 0x44, 1, 0, 0x70, 0, 7, 0, 0, 0, 0, 0, 0, 0] 7]

/-- The report has the name and the rules that came first. -/
theorem sealed_facts_last_contradicted :
    ∃ report ∈ reportsOn 1 (ruled ++ contradicted),
      report.server.headline = ⟨some "n", some "m", none, 10, 16⟩ ∧
      report.server.rules = [⟨"version", "1"⟩, ⟨"dedicated", "1"⟩, ⟨"sv_os", "linux"⟩,
        ⟨"k", "v"⟩] := by
  obtain ⟨t, hfound, hp, hstatus, hrules, hheadline, hlist⟩ : ∃ t,
      (run ruled).target? 1 = some t ∧ t.protocol = .a2s ∧ .status ∈ t.machine.sealedPhases ∧
      .rules ∈ t.machine.sealedPhases ∧
      t.exchange.server.headline = ⟨some "n", some "m", none, 10, 16⟩ ∧
      t.exchange.server.rules = [⟨"version", "1"⟩, ⟨"dedicated", "1"⟩, ⟨"sv_os", "linux"⟩,
        ⟨"k", "v"⟩] :=
    ⟨_, rfl, by decide +kernel, by decide +kernel, by decide +kernel, by decide +kernel,
      by decide +kernel⟩
  obtain ⟨report, hreport⟩ : ∃ report, report ∈ reportsOn 1 (ruled ++ contradicted) :=
    List.exists_mem_of_length_pos (by decide +kernel)
  have hkept := ((sealed_facts_last _).2 ruled contradicted rfl 1 t hfound).2 report hreport hp
  exact ⟨report, hreport, (hkept.headline hstatus).trans hheadline,
    (hkept.rules hstatus hrules).trans hlist⟩

end Engine

end ServerProbe
