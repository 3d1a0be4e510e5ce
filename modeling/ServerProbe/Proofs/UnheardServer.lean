/-
What is known when nothing seems to have come.

A target is reported as timed out, or as down, if it has received nothing: nothing beyond the
challenge has been answered, and the server is empty. But emptiness only looks at the name, the
map, the rules and the players. It overlooks the game and the two numbers of players, and so
these are on such a report as they were told last (`unheard_server_eq`).

There is one protocol in which it comes to that. The first GameSpy query is answered in
datagrams, each of which may tell the game or a number of players, and without the others the
status is not answered. In the other protocols a payload that tells one of them is a whole
status, or it is broken and ends the target with an error (`Protocol.read_allOrNothing`), so
nothing at all is known of a server that is reported so.
-/
import ServerProbe.Proofs.Ending
import ServerProbe.Proofs.RepeatedFacts
import ServerProbe.Proofs.Reporting

set_option autoImplicit false

namespace ServerProbe

open Reply

/-! ## What emptiness overlooks -/

/-- Whether a fact is one that emptiness overlooks: the game, or a number of players. -/
def Fact.IsOverlooked : Fact → Prop
  | .game _ => True
  | .numPlayers _ => True
  | .maxPlayers _ => True
  | _ => False

namespace Server

variable {s : Server}

/-- A server without the flags that a report puts on it. -/
def unflagged (s : Server) : Server :=
  { s with missingStatus := false, missingRules := false, missingPlayers := false }

/-- What emptiness overlooks of a server. -/
def overlooked (s : Server) : Server where
  game := s.game
  numPlayers := s.numPlayers
  maxPlayers := s.maxPlayers

/-- A server after a fact that emptiness overlooks; others leave it as it is. -/
def noting (s : Server) : Fact → Server
  | .game text => { s with game := some text }
  | .numPlayers count => { s with numPlayers := count }
  | .maxPlayers count => { s with maxPlayers := count }
  | _ => s

/-- The server of which only the facts that emptiness overlooks are known. Of each kind the
last one counts. -/
def ofOverlooked (facts : List Fact) : Server := facts.foldl noting {}

/-- An empty server is what emptiness overlooks of it, the flags apart. -/
theorem unflagged_of_isEmpty (h : s.isEmpty = true) : s.unflagged = s.overlooked := by
  obtain ⟨name, map, game, numPlayers, maxPlayers, _, _, _, rules, players⟩ := s
  simp only [isEmpty, Bool.and_eq_true, Option.isNone_iff_eq_none, List.isEmpty_iff] at h
  obtain ⟨⟨⟨rfl, rfl⟩, rfl⟩, rfl⟩ := h
  rfl

theorem foldl_noting_of_none {facts : List Fact} (h : ∀ f ∈ facts, ¬f.IsOverlooked) :
    facts.foldl noting s = s := by
  induction facts with
  | nil => rfl
  | cons f rest ih =>
    have hfirst : s.noting f = s := by
      have hf := h f List.mem_cons_self
      cases f <;> first | rfl | exact absurd trivial hf
    rw [List.foldl_cons, hfirst]
    exact ih fun g hg => h g (List.mem_cons_of_mem f hg)

end Server

namespace Exchange

/-- What emptiness overlooks follows from the facts that it overlooks. -/
theorem overlooked_learnedAll (policy : DuplicatePolicy) (x : Exchange) (facts : List Fact) :
    (x.learnedAll policy facts).server.overlooked
      = facts.foldl Server.noting x.server.overlooked := by
  induction facts generalizing x with
  | nil => rfl
  | cons f rest ih =>
    have hfirst : (x.learned policy f).server.overlooked = x.server.overlooked.noting f := by
      cases f <;> rfl
    rw [List.foldl_cons, ← hfirst]
    exact ih (x.learned policy f)

/-- All that a payload tells is learned, unless the payload ends the query. -/
theorem server_of_harmless (policy : DuplicatePolicy) (x : Exchange) {reading : Reading}
    (h : ∀ kind, (x.apply policy reading).2.outcome = .error kind → kind.isFatal = false) :
    (x.apply policy reading).1.server = (x.learnedAll policy reading.facts).server := by
  have hkept : (x.learnAll policy reading.facts).2 = none := by
    rcases x.apply_cases policy reading with
      ⟨x', fault, hlearn, happly⟩ | ⟨x', _, hlearn, -⟩ | ⟨x', _, hlearn, -⟩
    · -- a fact for which there is no room would end it
      have hfatal := learnAll_fault (congrArg Prod.snd hlearn)
      rw [h fault.kind (by rw [happly]; rfl)] at hfatal
      cases hfatal
    · rw [hlearn]
    · rw [hlearn]
  rw [apply_server, learnAll_of_kept hkept]

end Exchange

/-! ## What payloads tell -/

/-- Whether a payload tells nothing that emptiness overlooks, unless it answers the status or
breaks off. -/
inductive Reading.AllOrNothing : Reading → Prop where
  | nothing {reading : Reading} : (∀ f ∈ reading.facts, ¬f.IsOverlooked) → AllOrNothing reading
  | broken (facts : List Fact) {fault : Fault} : fault.kind.isFatal = true →
      AllOrNothing ⟨facts, .error fault⟩
  | status (facts : List Fact) {answered : PhaseSet} : .status ∈ answered →
      AllOrNothing ⟨facts, .ok (.done answered true)⟩

theorem Reading.AllOrNothing.nil {ending : Except Fault Ending} : AllOrNothing ⟨[], ending⟩ :=
  .nothing fun _ hf => absurd hf List.not_mem_nil

theorem Answers.allOrNothing {phase : Phase} {said : Reading} (h : Answers phase said) :
    said.AllOrNothing := by
  cases h with
  | nothing fault => exact .nil
  | broken facts hfatal => exact .broken facts hfatal
  | status facts hphase hanswered => exact .status facts (hphase ▸ hanswered)
  | entries hentries =>
    refine .nothing fun f hf hoverlooked => ?_
    have hentry := hentries f hf
    cases f <;> first | exact hentry | exact hoverlooked

/-- Whatever a payload means, it tells all or nothing, unless it is a part of a numbered
reply. -/
theorem Meaning.reading_allOrNothing {meaning : Meaning} (hregular : meaning.Regular)
    (hwhole : ∀ number final facts fault, meaning ≠ .datagram number final facts fault)
    (s : Situation) : (meaning.reading s).AllOrNothing := by
  cases meaning with
  | broken fault => exact .nil
  | token value =>
    have htoken : ∀ ending, Reading.AllOrNothing ⟨[.token value], ending⟩ := by
      refine fun ending => .nothing fun f hf => ?_
      obtain rfl := List.mem_singleton.mp hf
      exact not_false
    unfold reading
    dsimp only
    split
    · split
      · exact .nil
      · exact htoken _
    · split
      · exact .nil
      · exact htoken _
  | reply phase said =>
    unfold reading
    dsimp only
    split
    · exact .nil
    · exact Answers.allOrNothing hregular
  | datagram number final facts fault => exact absurd rfl (hwhole number final facts fault)

namespace Protocol

theorem A2s.reply_split {payload : List UInt8} (h : splitHeader <+: payload) (s : Situation) :
    ((reply s).readAll payload).facts = [] := by
  obtain ⟨rest, rfl⟩ := h
  have hmarker := int32LE_splitHeader 0 rest
  have hnone := ((yields_split s).reading ⟨4, rest⟩).1
  rw [readAll_eq]
  unfold reply
  rw [Reader.ofPayload, bind_read_ok hmarker, if_neg (by decide), if_pos rfl]
  exact List.eq_nil_iff_forall_not_mem.mpr hnone

variable {p : Protocol}

/-- Which datagrams of a numbered reply have come is nothing to a protocol without any. -/
theorem read_received (hp : p ≠ .gamespy) (s : Situation) (received : UInt64)
    (payload : List UInt8) :
    p.read { s with session := { s.session with received } } payload = p.read s payload := by
  cases p with
  | gamespy => exact absurd rfl hp
  | a2s => rfl
  | q3 => rfl
  | gs4 => rfl

/-- **What a payload tells beyond emptiness,** it tells with the whole status, or it breaks
off. Only the first GameSpy query is different. -/
theorem read_allOrNothing (hp : p ≠ .gamespy) (s : Situation) (payload : List UInt8) :
    (p.read s payload).AllOrNothing := by
  by_cases hsplit : p = .a2s ∧ A2s.splitHeader <+: payload
  · obtain ⟨rfl, hheader⟩ := hsplit
    have hnone : (Protocol.read .a2s s payload).facts = [] := A2s.reply_split hheader s
    refine .nothing fun f hf => ?_
    rw [hnone] at hf
    cases hf
  obtain ⟨meaning, hregular, hreading⟩ :=
    p.exists_meaning s.session.sessionId fun ha2s hheader => hsplit ⟨ha2s, hheader⟩
  rw [hreading s rfl]
  refine Meaning.reading_allOrNothing hregular ?_ s
  rintro number final facts fault rfl
  -- a datagram would read differently once it has come
  have hnew := hreading ⟨none, ∅, { s.session with received := 0 }⟩ rfl
  have hcame := hreading ⟨none, ∅, { s.session with received := Session.datagramBit number }⟩ rfl
  rw [read_received hp ⟨none, ∅, s.session⟩] at hnew hcame
  have hsame := congrArg (fun reading => reading.facts.length) (hnew.symm.trans hcame)
  dsimp only [Meaning.reading] at hsame
  rw [if_neg (PhaseSet.not_mem_empty _), if_neg (PhaseSet.not_mem_empty _),
    if_pos (Session.maskHas_self number)] at hsame
  have hnone : Session.maskHas 0 number = false := by
    rw [Session.maskHas, UInt64.zero_and]
    rfl
  rw [hnone, if_neg Bool.false_ne_true] at hsame
  cases hsame

end Protocol

/-! ## What a target has been told -/

namespace Moment

/-- What is told at a moment: the facts that stand in a payload. -/
def told (m : Moment) : List Fact :=
  match m.cue with
  | .hear payload _ => (m.target.reading payload).facts
  | _ => []

/-- **What is told is known from then on,** unless the payload is broken. -/
theorem overlooked_reaction {m : Moment} (hintact : ∀ kind, ¬m.Breaks kind) :
    m.reaction.target.exchange.server.overlooked
      = m.told.foldl Server.noting m.target.exchange.server.overlooked := by
  obtain ⟨t, cue⟩ := m
  cases cue with
  | hear payload now =>
    have hfaults : ∀ kind, (t.exchanged payload).2.outcome = .error kind →
        kind.isFatal = false := by
      intro kind houtcome
      by_contra hfatal
      exact hintact kind ⟨payload, now, rfl, houtcome, by simpa using hfatal⟩
    have hkept : (t.exchanged payload).1.server
        = (t.exchange.learnedAll t.config.rulePolicy (t.reading payload).facts).server := by
      rw [t.exchanged_eq] at hfaults ⊢
      exact t.exchange.server_of_harmless t.config.rulePolicy hfaults
    change (t.hear payload now).target.exchange.server.overlooked = _
    rw [t.hear_exchange, hkept]
    exact Exchange.overlooked_learnedAll t.config.rulePolicy t.exchange _
  | ask now =>
    obtain ⟨m, l, h⟩ := t.ask_target now
    change (t.ask now).target.exchange.server.overlooked = _
    rw [h]
    rfl
  | linger => rfl
  | unsent error =>
    unfold Moment.reaction Target.react
    dsimp only
    split
    · rfl
    · rfl

end Moment

/-! ## Targets that nothing is known of -/

namespace Machine

variable {m : Machine}

theorem answeredAny_iff : m.answeredAny = true ↔
    ∃ leg ∈ m.plan, leg.phase ≠ .challenge ∧ leg.status.isDone = true := by
  simp [answeredAny]

/-- Something that is answered stays answered. -/
theorem Path.answeredAny {p : Protocol} {s : Session} {credit : PhaseSet → Prop}
    {start : Machine} {request : Option Request} (h : Path p s credit start m request)
    (hstart : start.Sound) (hany : start.answeredAny = true) : m.answeredAny = true := by
  obtain ⟨leg, hleg, hphase, hdone⟩ := answeredAny_iff.mp hany
  exact answeredAny_iff.mpr ⟨leg, h.done_stays hstart hleg hdone, hphase, hdone⟩

end Machine

namespace Target

/-- Whether nothing that emptiness overlooks is known before something is answered, except
in the first GameSpy query. -/
structure Candid (t : Target) : Prop where
  sound : t.machine.Sound
  tight : t.machine.Tight
  blank : t.protocol ≠ .gamespy → t.machine.answeredAny = false →
    t.exchange.server.overlooked = {}

/-- When a payload answers the status, something is answered. -/
theorem answeredAny_hear {t : Target} (hsound : t.machine.Sound) (htight : t.machine.Tight)
    {payload : List UInt8} {sealing : Bool}
    (houtcome : (t.exchanged payload).2.outcome = .done sealing)
    (hanswered : .status ∈ (t.exchanged payload).2.answered) (now : Instant) :
    (t.hear payload now).target.machine.answeredAny = true := by
  obtain ⟨leg, hleg, hphase⟩ := List.mem_map.mp htight.status
  have hsealed := sealed_of_answer hsound htight houtcome hleg (hphase ▸ hanswered) now
  obtain ⟨done, hdone, hsame, hstatus⟩ := Machine.mem_sealedPhases.mp hsealed
  refine Machine.answeredAny_iff.mpr ⟨done, hdone, ?_, ?_⟩
  · rw [hsame, hphase]
    nofun
  · rw [hstatus]
    rfl

/-- While nothing is answered, nothing is told that emptiness overlooks, except in the first
GameSpy query. -/
theorem noting_told {t : Target} {payload : List UInt8} {now : Instant}
    (hsound : t.machine.Sound) (htight : t.machine.Tight) (hprotocol : t.protocol ≠ .gamespy)
    (hintact : ∀ kind, ¬Moment.Breaks ⟨t, .hear payload now⟩ kind)
    (hopen : (t.hear payload now).target.machine.answeredAny = false) (s : Server) :
    (t.reading payload).facts.foldl Server.noting s = s := by
  have hexchanged : t.exchanged payload
    = t.exchange.apply t.config.rulePolicy (t.reading payload) := t.exchanged_eq payload
  have hreading : (t.reading payload).AllOrNothing :=
    Protocol.read_allOrNothing hprotocol _ payload
  generalize t.reading payload = reading at hreading hexchanged
  cases hreading with
  | nothing hnone => exact Server.foldl_noting_of_none hnone
  | broken facts hfatal =>
    -- then the payload would end the target with an error
    obtain ⟨kind, hkind, houtcome⟩ := t.exchange.apply_broken t.config.rulePolicy hfatal
    exact absurd ⟨payload, now, rfl, hexchanged ▸ houtcome, hkind⟩ (hintact kind)
  | status facts hanswered =>
    rcases t.exchange.apply_done t.config.rulePolicy facts _ with
      ⟨kind, hkind, houtcome⟩ | ⟨x, -, happly⟩
    · exact absurd ⟨payload, now, rfl, hexchanged ▸ houtcome, hkind⟩ (hintact kind)
    · -- then something would be answered
      rw [happly] at hexchanged
      have hany := answeredAny_hear hsound htight
        (congrArg (fun result => result.2.outcome) hexchanged)
        (by rw [hexchanged]; exact hanswered) now
      cases hany.symm.trans hopen

theorem Candid.fresh (id : Nat) (address : Address) (mode : TargetMode) (p : Protocol)
    (config : Config) (nonce : UInt32) :
    (Target.fresh id address mode p config nonce).Candid where
  sound := Machine.sound_ofConfig p.capabilities config
  tight := Machine.tight_ofConfig p.capabilities config
  blank := fun _ _ => rfl

theorem Candid.react {m : Moment} (h : m.target.Candid) (hintact : ∀ kind, ¬m.Breaks kind) :
    m.reaction.target.Candid where
  sound := (m.target.react_path m.cue).sound h.sound
  tight := react_tight h.tight m.cue
  blank := by
    intro hprotocol hopen
    rw [Moment.reaction, react_protocol] at hprotocol
    -- nothing was answered before, so nothing was known
    have hbefore : m.target.exchange.server.overlooked = {} := by
      refine h.blank hprotocol (Bool.eq_false_iff.mpr fun hany => ?_)
      rw [Moment.reaction, (m.target.react_path m.cue).answeredAny h.sound hany] at hopen
      cases hopen
    rw [Moment.overlooked_reaction hintact, hbefore]
    obtain ⟨t, cue⟩ := m
    cases cue with
    | hear payload now => exact noting_told h.sound h.tight hprotocol hintact hopen {}
    | ask now => rfl
    | linger => rfl
    | unsent error => rfl

end Target

/-- What emptiness overlooks of an active target is what has been told. -/
theorem Life.overlooked {newborn t : Target} {past : List Moment}
    (h : Life newborn past (some t)) (hnewborn : newborn.exchange.server = {}) :
    t.exchange.server.overlooked = .ofOverlooked (past.flatMap Moment.told) := by
  have hgoesOn := h.goesOn
  refine h.induction_on (P := fun past t => (∀ m ∈ past, m.reaction.fate = .goesOn) →
    t.exchange.server.overlooked = .ofOverlooked (past.flatMap Moment.told)) ?_ ?_ ?_ hgoesOn
  · intro _
    rw [hnewborn]
    rfl
  · exact fun _ ih => ih
  · intro past m ih hall
    have hintact := Moment.not_breaks_of_goesOn (hall m (by simp))
    rw [Moment.overlooked_reaction hintact, ih fun m' hm' => hall m' (by simp [hm'])]
    simp [Server.ofOverlooked]

/-! ## Reports of a target that has received nothing -/

/-- A target that is reported as timed out or down has not ended with a broken payload, and
has received nothing. -/
theorem Moment.unheard_of_report {m : Moment} (hready : m.target.Ready) {report : Report}
    (h : m.report? = some report) (hstatus : report.status = .timeout ∨ report.status = .down) :
    (∀ kind, ¬m.Breaks kind) ∧ m.reaction.target.hasReceived = false := by
  rcases Moment.status_cases hready h with ⟨kind, -, hkind⟩ | ⟨hintact, hplain⟩ | ⟨hrefuses, -⟩
  · rw [hkind] at hstatus
    rcases hstatus with hstatus | hstatus
    · cases hstatus
    · cases hstatus
  · -- the status is read off what has been received
    refine ⟨hintact, ?_⟩
    rw [hplain, Target.plainStatus] at hstatus
    by_contra hreceived
    rw [if_pos (by simpa using hreceived)] at hstatus
    rcases hstatus with hstatus | hstatus
    · cases hstatus
    · cases hstatus
  · refine ⟨fun kind hbreaks => ?_, hrefuses.hasReceived⟩
    cases hrefuses.over.symm.trans hbreaks.over

namespace Engine

/-- What the target with an id has been told in a run. -/
def toldTo (id : Nat) (calls : List Call) : List Fact :=
  (moments id (journal calls)).flatMap Moment.told

/-- Nothing is known of a server when its target is created. -/
theorem server_of_created {calls : List Call} {t : Target} (h : t ∈ created calls) :
    t.exchange.server = {} := by
  obtain ⟨event, hevent, hcreated⟩ := List.mem_filterMap.mp h
  obtain ⟨past, e, -, hfits⟩ := fits_of_journal hevent
  cases hfits with
  | added address mode p config nonce =>
    obtain rfl := Option.some.inj hcreated
    rfl
  | spawned parent sender hmem =>
    obtain rfl := Option.some.inj hcreated
    rfl
  | reacted => cases hcreated

/-- **What is known when a target is reported as timed out or down.** There is no name and no
map, there are no rules and no players; but the game and the numbers of players are there as
they were told last. Unless the protocol is the first GameSpy query they were not told either,
so nothing at all is known. -/
theorem unheard_server_eq (calls : List Call) :
    ∀ report ∈ reported calls, report.status = .timeout ∨ report.status = .down →
      report.server.unflagged = .ofOverlooked (toldTo report.id calls) ∧
      (report.protocol ≠ .gamespy → report.server.unflagged = {}) := by
  intro report hreport hstatus
  obtain ⟨newborn, hcreated, hid⟩ := created_of_reported hreport
  have hlife := life_of_created hcreated
  rw [hid] at hlife
  obtain ⟨past, m, hmoments, hbefore, hm⟩ :=
    life_of_reportsOn hlife (List.mem_filter.mpr ⟨hreport, beq_self_eq_true report.id⟩)
  have hevent : .reacted m ∈ journal calls :=
    (mem_moments.mp (hmoments ▸ List.mem_concat_self)).1
  obtain ⟨hintact, hunheard⟩ := Moment.unheard_of_report (ready_of_journal hevent) hm hstatus
  obtain ⟨-, status, rfl⟩ := Moment.report?_eq hm
  -- the target is as empty as its status says
  obtain ⟨hopen, hempty⟩ : m.reaction.target.machine.answeredAny = false ∧
      m.reaction.target.exchange.server.isEmpty = true := by
    simpa [Target.hasReceived] using hunheard
  have hserver : (m.reaction.target.report status).server.unflagged
      = m.reaction.target.exchange.server.overlooked := Server.unflagged_of_isEmpty hempty
  rw [hserver]
  refine ⟨?_, fun hprotocol => ?_⟩
  · rw [Moment.overlooked_reaction hintact, hbefore.overlooked (server_of_created hcreated),
      toldTo, hmoments]
    simp [Server.ofOverlooked]
  · have hcandid : m.target.Candid := every_moment (P := Target.Candid) .fresh
      (fun _ _ ht => ⟨ht.sound, ht.tight, ht.blank⟩)
      (fun _ _ _ _ ht => ⟨ht.sound, ht.tight, fun _ _ => rfl⟩)
      (fun m ht hgoesOn => ht.react (Moment.not_breaks_of_goesOn hgoesOn)) hevent
    exact (hcandid.react hintact).blank hprotocol hopen

/-- A query to which a part of the reply has come. -/
def halfHeard : List Call :=
  [.add .unicast "gamespy" ⟨"192.0.2.1", 7778⟩ { retries := 0 } 0 0,
    .receive ⟨"192.0.2.1", 7778⟩ (Text.Utf8.encode
      "\\gamename\\ut\\numplayers\\3\\maxplayers\\16\\queryid\\1.1".toList) 1]

/-- If the host refuses then, the target is reported as down, with what has come. -/
theorem unheard_server_eq_refused :
    ∃ report ∈ reported (halfHeard ++ [.sendFailed 1 { kind := .connectionRefused }]),
      report.status = .down ∧
      report.server.unflagged = { game := some "ut", numPlayers := 3, maxPlayers := 16 } := by
  have hone : (reported (halfHeard ++ [.sendFailed 1 { kind := .connectionRefused }])).map
      (fun report => (report.id, report.status)) = [(1, .down)] := by decide +kernel
  obtain ⟨report, hmem, hpair⟩ := List.mem_map.mp (hone ▸ List.mem_singleton_self _)
  obtain ⟨hid, hstatus⟩ := Prod.mk.inj hpair
  refine ⟨report, hmem, hstatus, ?_⟩
  rw [(unheard_server_eq _ report hmem (.inr hstatus)).1, hid]
  decide +kernel

/-- So a report that says that nothing came in time can hold a game and numbers of players. -/
theorem timeout_not_blank :
    ((reported (halfHeard ++ [.tick 600000000])).map fun report =>
      (report.status, report.server.game, report.server.numPlayers, report.server.maxPlayers))
      = [(.timeout, some "ut", 3, 16)] := by
  decide +kernel

end Engine

end ServerProbe
