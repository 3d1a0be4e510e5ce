/-
In which order a target asks, and what for.

The requests of a target follow the order of the phases, because its machine moves
forward only and asks for the leg that it stands at. A request that needs a token is
made at a leg that needs the challenge, so the challenge was answered, and it can have
been answered by one thing only: a reply with a token that came while the challenge was
asked. That token was stored, and nothing but another such reply takes its place.

A host that answered a broadcast takes over the machine and the conversation of the
broadcast, so the reply may be one to the broadcast. The `lineage` of a target is what
it has behind it in this sense: its own moments, and before them those of the broadcast
up to then.
-/
import ServerProbe.Proofs.Life
import ServerProbe.Proofs.Order

set_option autoImplicit false

namespace ServerProbe

/-! ## Tokens -/

/-- The token in a fact. -/
def Fact.token? : Fact → Option Int32
  | .token value => some value
  | _ => none

/-- How a payload reads to a target. -/
def Target.reading (t : Target) (payload : List UInt8) : Reading :=
  t.protocol.read ⟨t.machine.currentPhase?, t.machine.sealedPhases, t.exchange.session⟩ payload

/-- What a payload does is what its reading, in one go, says. -/
theorem Target.exchanged_eq (t : Target) (payload : List UInt8) :
    t.exchanged payload = t.exchange.apply t.config.rulePolicy (t.reading payload) :=
  t.exchange.receive_eq t.protocol t.config.requestParams t.machine.currentPhase?
    t.machine.sealedPhases payload

/-- The token that a target stores at a moment: that of a reply which hands one out. -/
def Moment.stored? (m : Moment) : Option Int32 :=
  match m.cue with
  | .hear payload _ => ((m.target.reading payload).facts.filterMap Fact.token?).getLast?
  | _ => none

/-- Whether a moment is that of a reply which hands out a token, and the token is stored. -/
def Moment.HandsOut (m : Moment) (token : Int32) : Prop :=
  ∃ payload now, m.cue = .hear payload now ∧
    m.target.protocol.HandsOut m.target.exchange.session payload token ∧ m.stored? = some token

/-- Whether a moment is that of a reply with the token that was asked for. -/
def Moment.Grants (m : Moment) : Prop :=
  m.target.machine.currentPhase? = some .challenge ∧ ∃ token, m.HandsOut token

/-- The token that was stored last. -/
def latestToken (past : List Moment) : Option Int32 := (past.filterMap Moment.stored?).getLast?

/-- Whether a target with some moments behind it may use a token: it was handed out by the
last reply of which a token was stored, and one of these came while the challenge was
asked. -/
structure Entitled (past : List Moment) (token : Int32) : Prop where
  latest : latestToken past = some token
  handedOut : ∃ m ∈ past, m.HandsOut token
  granted : ∃ m ∈ past, m.Grants

theorem latestToken_concat (past : List Moment) (m : Moment) :
    latestToken (past ++ [m]) = m.stored?.or (latestToken past) := by
  rw [latestToken, List.filterMap_append, List.filterMap_cons]
  rcases m.stored? with _ | token
  · simp [latestToken]
  · simp

theorem filterMap_token_of_plain {facts : List Fact} (h : ∀ f ∈ facts, f.Plain) :
    facts.filterMap Fact.token? = [] := by
  rw [List.filterMap_eq_nil_iff]
  intro f hf
  cases f with
  | token value => exact absurd rfl (h _ hf value)
  | _ => rfl

namespace Target

/-- What a target stores at a moment is its token afterwards. -/
theorem react_challenge (m : Moment) :
    m.reaction.target.exchange.session.challenge
      = m.stored?.or m.target.exchange.session.challenge := by
  obtain ⟨t, cue⟩ := m
  cases cue with
  | ask now => exact congrArg (fun x => x.session.challenge) (t.ask_exchange now)
  | linger => rfl
  | unsent error =>
    change (t.react (.unsent error)).target.exchange.session.challenge = _
    unfold react
    dsimp only
    split
    · rfl
    · rfl
  | hear payload now =>
    change (t.hear payload now).target.exchange.session.challenge
      = (((t.reading payload).facts.filterMap Fact.token?).getLast?).or _
    rw [t.hear_exchange, t.exchanged_eq]
    have htells : t.protocol.Tells _ payload (t.reading payload) := t.protocol.read_tells _ payload
    generalize t.reading payload = reading at htells ⊢
    -- only a reading that hands out a token changes the one that is held
    cases htells with
    | granted token hout hcurrent => rfl
    | renewed token hout hcurrent hheld => rfl
    | piece series index count chunk hp hlt hroom hlength => rfl
    | plain _ hfacts hending =>
      rw [filterMap_token_of_plain hfacts]
      exact (Exchange.apply_plain t.config.rulePolicy t.exchange hfacts hending).challenge

/-- A token that is stored was handed out. -/
theorem handsOut_of_stored {m : Moment} {token : Int32} (h : m.stored? = some token) :
    m.HandsOut token := by
  obtain ⟨t, cue⟩ := m
  cases cue with
  | ask now => cases h
  | linger => cases h
  | unsent error => cases h
  | hear payload now =>
    refine ⟨payload, now, rfl, ?_, h⟩
    change ((t.reading payload).facts.filterMap Fact.token?).getLast? = some token at h
    have htells : t.protocol.Tells _ payload (t.reading payload) := t.protocol.read_tells _ payload
    generalize t.reading payload = reading at htells h
    cases htells with
    | granted token' hout hcurrent =>
      obtain rfl : token' = token := Option.some.inj h
      exact hout
    | renewed token' hout hcurrent hheld =>
      obtain rfl : token' = token := Option.some.inj h
      exact hout
    | piece series index count chunk hp hlt hroom hlength => cases h
    | plain _ hfacts hending =>
      rw [filterMap_token_of_plain hfacts] at h
      cases h

/-- A reply counts for the challenge only if it grants the token that was asked for. -/
theorem grants_of_credits {t : Target} {cue : Cue} {answered : PhaseSet}
    (h : t.Credits cue answered) (hchallenge : .challenge ∈ answered) :
    Moment.Grants ⟨t, cue⟩ := by
  cases cue with
  | ask now => exact h.elim
  | linger => exact h.elim
  | unsent error => exact h.elim
  | hear payload now =>
    obtain ⟨sealing, houtcome, rfl⟩ := h
    have htells : t.protocol.Tells _ payload (t.reading payload) := t.protocol.read_tells _ payload
    rw [t.exchanged_eq] at houtcome
    change _ ∈ Engine.credited (t.exchanged payload).2.answered _ at hchallenge
    rw [t.exchanged_eq] at hchallenge
    generalize hreading : t.reading payload = reading at htells houtcome hchallenge
    -- a plain reading answers by name, and never the challenge
    cases htells with
    | granted token hout hcurrent =>
      refine ⟨hcurrent, token, payload, now, rfl, hout, ?_⟩
      change ((t.reading payload).facts.filterMap Fact.token?).getLast? = some token
      rw [hreading]
      rfl
    | renewed token hout hcurrent hheld => cases houtcome
    | piece series index count chunk hp hlt hroom hlength => cases houtcome
    | plain _ hfacts hending =>
      have hplain := Exchange.apply_plain t.config.rulePolicy t.exchange hfacts hending
      obtain ⟨-, hanswered, hnot⟩ := hplain.answered sealing houtcome
      rw [Engine.credited, hanswered] at hchallenge
      exact absurd hchallenge hnot

end Target

/-! ## Lineages -/

/-- What an event adds to the lineages. A host that answered a broadcast starts with what
the broadcast has behind it. -/
def lineageStep (lineage : Nat → List Moment) : Event → Nat → List Moment
  | .added t, id => if id = t.id then [] else lineage id
  | .spawned parent child, id => if id = child.id then lineage parent.id else lineage id
  | .reacted m, id => if id = m.target.id then lineage id ++ [m] else lineage id

/-- What the target of an id has behind it after some events: its own moments, and for a
host that answered a broadcast those of the broadcast before that. -/
def lineage (id : Nat) (events : List Event) : List Moment :=
  events.foldl lineageStep (fun _ => []) id

theorem lineage_concat (id : Nat) (events : List Event) (event : Event) :
    lineage id (events ++ [event]) = lineageStep (fun id => lineage id events) event id := by
  rw [lineage, List.foldl_append, List.foldl_cons, List.foldl_nil]
  rfl

/-- What is known about a target from what it has behind it. -/
structure Target.Traced (t : Target) (past : List Moment) : Prop where
  /-- Its machine is in order. -/
  sound : t.machine.Sound
  /-- It has to ask a challenge for what its protocol says. -/
  gated : t.machine.gated = t.protocol.capabilities.gates
  /-- Its token is the one that was stored last. -/
  token : t.exchange.session.challenge = latestToken past
  /-- If its challenge was answered, then by a reply with the token that was asked for. -/
  granted : ∀ c ∈ t.machine.plan, c.phase = .challenge → c.status.isDone = true →
    ∃ m ∈ past, m.Grants

namespace Target

theorem Traced.fresh (id : Nat) (address : Address) (mode : TargetMode) (p : Protocol)
    (config : Config) (nonce : UInt32) :
    (Target.fresh id address mode p config nonce).Traced [] where
  sound := Machine.sound_ofConfig p.capabilities config
  gated := rfl
  token := by cases p <;> rfl
  granted := by
    intro c hc _ hdone
    obtain ⟨phase, -, rfl⟩ := List.mem_map.mp hc
    cases hdone

/-- What is known about a target is known about it after a moment. -/
theorem Traced.react {m : Moment} {past : List Moment} (h : m.target.Traced past) :
    m.reaction.target.Traced (past ++ [m]) := by
  have hpath := m.target.react_path m.cue
  refine ⟨hpath.sound h.sound, ?_, ?_, ?_⟩
  · rw [m.reaction_protocol]
    exact hpath.forward.2.trans h.gated
  · rw [react_challenge, latestToken_concat, h.token]
  · intro c hc hchallenge hdone
    -- the challenge was answered before, or by this moment
    rcases hpath.done_cases hc hdone with hold | ⟨answered, hcredit, hanswered⟩
    · obtain ⟨m₀, hm₀, hgrants⟩ := h.granted c hold hchallenge hdone
      exact ⟨m₀, List.mem_append_left _ hm₀, hgrants⟩
    · refine ⟨m, by simp, grants_of_credits hcredit ?_⟩
      rw [← hchallenge]
      exact hanswered

/-- A request for which a challenge has to be asked is made with the token that was stored
last, after the token that was asked for was granted. -/
theorem Traced.request {m : Moment} {past : List Moment} (h : m.target.Traced past) {r : Request}
    (hrequest : m.reaction.request = some r)
    (hneeds : r.phase ∈ m.target.protocol.capabilities.gates) (hphase : r.phase ≠ .challenge) :
    ∃ token, Entitled (past ++ [m]) token ∧
      m.reaction.target.exchange.session.challenge = some token ∧
      m.target.protocol.request r.phase m.reaction.target.exchange.session = .ok r.payload := by
  have hpath := m.target.react_path m.cue
  have hafter := h.react
  obtain ⟨leg, hleg, hlegPhase, -, hpayload⟩ := hpath.request_current hrequest
  have hlegNeeds : leg.phase ∈ m.reaction.target.machine.gated := by
    rw [hlegPhase, hafter.gated, m.reaction_protocol]
    exact hneeds
  obtain ⟨c, hc, hchallenge, hdone⟩ :=
    hafter.sound.challenge_done hleg hlegNeeds (hlegPhase ▸ hphase)
  obtain ⟨m₀, hm₀, hgrants⟩ := hafter.granted c hc hchallenge hdone
  -- the moment that granted a token stored it, so there is a last one
  have hstored : latestToken (past ++ [m]) ≠ none := by
    obtain ⟨-, token, _, _, -, -, htoken⟩ := hgrants
    rw [latestToken, ne_eq, List.getLast?_eq_none_iff]
    exact List.ne_nil_of_mem (List.mem_filterMap.mpr ⟨m₀, hm₀, htoken⟩)
  obtain ⟨token, htoken⟩ := Option.ne_none_iff_exists'.mp hstored
  obtain ⟨m₁, hm₁, hlast⟩ := List.mem_filterMap.mp (List.mem_of_getLast? htoken)
  exact ⟨token, ⟨htoken, ⟨m₁, hm₁, handsOut_of_stored hlast⟩, ⟨m₀, hm₀, hgrants⟩⟩,
    hafter.token.trans htoken, hpayload⟩

end Target

/-- The rules and the players are requested with the token that is held, if there is one. -/
theorem a2s_request_payload {s : Session} {token : Int32} (hs : s.challenge = some token)
    {phase : Phase} (hphase : phase = .rules ∨ phase = .players) {payload : List UInt8}
    (h : Protocol.a2s.request phase s = .ok payload) :
    payload = Protocol.A2s.header ++ (if phase = .rules then 0x56 else 0x55)
      :: Octets.littleEndian 4 token.toUInt32.toNat := by
  have hrequest : Protocol.A2s.request phase {} s = payload := Except.ok.inj h
  unfold Protocol.A2s.request at hrequest
  rw [hs, Option.getD_some] at hrequest
  rcases hphase with rfl | rfl
  · exact hrequest.symm
  · exact hrequest.symm

/-- The full status is requested with the token that is held, if there is one. -/
theorem gs4_request_payload {s : Session} {token : Int32} (hs : s.challenge = some token)
    {payload : List UInt8} (h : Protocol.gs4.request .status s = .ok payload) :
    payload = Protocol.GameSpy4.magic ++ Protocol.GameSpy4.statusType
      :: Octets.bigEndian 4 s.sessionId.toNat
      ++ Octets.bigEndian 4 token.toUInt32.toNat ++ [0, 0, 0, 0] := by
  change Protocol.GameSpy4.request .status {} s = .ok payload at h
  unfold Protocol.GameSpy4.request at h
  rw [hs] at h
  exact (Except.ok.inj h).symm

/-! ## The order of requests -/

/-- The requests that a target makes in its moments. -/
def requests (past : List Moment) : List Request := past.filterMap fun m => m.reaction.request

theorem requests_concat (past : List Moment) (m : Moment) :
    requests (past ++ [m]) = requests past ++ m.reaction.request.toList := by
  rw [requests, List.filterMap_append, List.filterMap_cons]
  rcases m.reaction.request with _ | r
  · rfl
  · rfl

/-- Whether requests go forward through the phases, and a target is not behind any. -/
structure Target.Ordered (t : Target) (rs : List Request) : Prop where
  sound : t.machine.Sound
  ascending : rs.Pairwise fun r r' => r.phase.rank ≤ r'.phase.rank
  upTo : ∀ r ∈ rs, ∀ i leg, t.machine.plan[i]? = some leg → t.machine.current ≤ i →
    r.phase.rank ≤ leg.phase.rank

theorem Target.Ordered.react {m : Moment} {rs : List Request} (h : m.target.Ordered rs) :
    m.reaction.target.Ordered (rs ++ m.reaction.request.toList) := by
  have hpath := m.target.react_path m.cue
  have hsound := hpath.sound h.sound
  -- a leg of the plan has had its phase all along, and the machine has moved forward only
  have hold : ∀ r ∈ rs, ∀ i leg, m.reaction.target.machine.plan[i]? = some leg →
      m.reaction.target.machine.current ≤ i → r.phase.rank ≤ leg.phase.rank := by
    intro r hr i leg hleg hi
    have hphases := congrArg (fun phases => phases[i]?) hpath.phases
    simp only [List.getElem?_map] at hphases
    rw [show (m.target.react m.cue).target.machine.plan[i]? = some leg from hleg] at hphases
    obtain ⟨before, hbefore, hphase⟩ := Option.map_eq_some_iff.mp hphases.symm
    rw [← hphase]
    exact h.upTo r hr i before hbefore (hpath.forward.1.trans hi)
  rcases hrequest : m.reaction.request with _ | r
  · rw [Option.toList_none, List.append_nil]
    exact ⟨hsound, h.ascending, hold⟩
  · obtain ⟨here, hhere, hphase, -, -⟩ := hpath.request_current hrequest
    rw [Option.toList_some]
    refine ⟨hsound, ?_, ?_⟩
    · refine List.pairwise_append.mpr ⟨h.ascending, List.pairwise_singleton _ _, ?_⟩
      intro r₀ hr₀ r₁ hr₁
      obtain rfl : r₁ = r := by simpa using hr₁
      rw [← hphase]
      exact hold r₀ hr₀ _ here hhere (Nat.le_refl _)
    · intro r₀ hr₀ i leg hleg hi
      rcases List.mem_append.mp hr₀ with hpast | hlast
      · exact hold r₀ hpast i leg hleg hi
      · obtain rfl : r₀ = r := by simpa using hlast
        rw [← hphase]
        rcases Nat.eq_or_lt_of_le hi with heq | hlt
        · obtain rfl : here = leg := by
            rw [← heq] at hleg
            exact Option.some.inj (hhere.symm.trans hleg)
          exact Nat.le_refl _
        · exact Nat.le_of_lt (hsound.rank_lt hhere hleg hlt)

/-- The requests of a target go forward through the phases. -/
theorem Life.requests_ascending {newborn : Target} (hnewborn : newborn.machine.Sound)
    {past : List Moment} {now : Option Target} (h : Life newborn past now) :
    (requests past).Pairwise fun r r' => r.phase.rank ≤ r'.phase.rank := by
  -- the last moment of a life is that of a target that lived up to then
  have hlives : ∀ {past : List Moment} {t : Target}, Life newborn past (some t) →
      t.Ordered (requests past) := by
    intro past t hlife
    refine hlife.induction_on (P := fun past t => t.Ordered (requests past))
      ⟨hnewborn, List.Pairwise.nil, nofun⟩
      (fun _ hpast => ⟨hpast.sound, hpast.ascending, hpast.upTo⟩)
      fun {past m} hpast => ?_
    rw [requests_concat]
    exact hpast.react
  refine h.whole (P := fun past => (requests past).Pairwise _) List.Pairwise.nil ?_
  intro before m hbefore
  rw [requests_concat]
  exact (hlives hbefore).react.ascending

/-! ## Requests in a run -/

namespace Engine

theorem lineageStep_of_not_concerns {lineage : Nat → List Moment} {event : Event} {id : Nat}
    (h : ¬event.Concerns id) : lineageStep lineage event id = lineage id := by
  cases event with
  | added t => exact if_neg fun heq => h heq.symm
  | spawned parent child => exact if_neg fun heq => h (.inr heq.symm)
  | reacted m => exact if_neg fun heq => h heq.symm

/-- What is known about the active targets of a run. -/
theorem Told.traced {past : List Event} {e : Engine} (h : Told past e) {id : Nat} {t : Target}
    (hfound : e.target? id = some t) : t.Traced (lineage id past) := by
  induction h generalizing id t with
  | start => cases hfound
  | @tell past e event htold hfits ih =>
    have hkept := htold.wellKept
    rw [lineage_concat]
    by_cases hconcerns : event.Concerns id
    · cases event with
      | added newborn =>
        obtain rfl : newborn.id = id := hconcerns
        rw [target?_tell_created hkept hfits rfl] at hfound
        obtain rfl := Option.some.inj hfound
        rw [lineageStep, if_pos rfl]
        cases hfits with
        | added address mode p config nonce => exact .fresh _ address mode p config nonce
      | spawned parent child =>
        -- the host takes over machine and conversation, and so what was behind them
        have hparent := ih (hkept.target?_of_mem hfits.parent_mem)
        have hne : parent.id ≠ child.id := by
          rw [hfits.created_id rfl]
          exact Nat.ne_of_lt (hkept.fresh parent hfits.parent_mem)
        rcases hconcerns with rfl | rfl
        · rw [target?_tell_parent hkept hfits] at hfound
          obtain rfl := Option.some.inj hfound
          rw [lineageStep, if_neg hne]
          exact ⟨hparent.sound, hparent.gated, hparent.token, hparent.granted⟩
        · rw [target?_tell_created hkept hfits rfl] at hfound
          obtain rfl := Option.some.inj hfound
          rw [lineageStep, if_pos rfl]
          cases hfits with
          | spawned _ sender =>
            exact ⟨hparent.sound, hparent.gated, hparent.token, hparent.granted⟩
      | reacted m =>
        obtain rfl : m.target.id = id := hconcerns
        rw [target?_tell_reacted hkept hfits, Moment.after?] at hfound
        rw [lineageStep, if_pos rfl]
        have htarget := ih (hkept.target?_of_mem hfits.target_mem)
        split at hfound
        · obtain rfl := Option.some.inj hfound
          exact htarget.react
        · cases hfound
    · rw [target?_tell_of_ne hkept hfits hconcerns] at hfound
      rw [lineageStep_of_not_concerns hconcerns]
      exact ih hfound
  | take _ hsame _ ih => exact ih (hsame.target? id ▸ hfound)

/-- What is known about a target when something happens to it in a run. -/
theorem traced_of_journal {calls : List Call} {past rest : List Event} {m : Moment}
    (h : journal calls = past ++ .reacted m :: rest) :
    m.target.Traced (lineage m.target.id past) := by
  have htold := told_journal calls
  rw [h] at htold
  obtain ⟨before, hbefore, hfits⟩ := htold.split
  exact hbefore.traced (hbefore.wellKept.target?_of_mem hfits.target_mem)

/-- The machine of a target that was just created is in order. -/
theorem Told.newborn_sound {past : List Event} {e : Engine} (h : Told past e) {event : Event}
    (hevent : event ∈ past) {newborn : Target} (hcreated : event.created? = some newborn) :
    newborn.machine.Sound := by
  obtain ⟨before, after, rfl⟩ := List.append_of_mem hevent
  obtain ⟨e₀, htold, hfits⟩ := h.split
  have hfound := target?_tell_created htold.wellKept hfits hcreated
  exact ((htold.tell hfits).traced hfound).sound

/-- What is queued for a target is what it requests. -/
theorem sentTo_payloads (id : Nat) (calls : List Call) :
    (sentTo id calls).map Transmit.payload
      = (requests (moments id (journal calls))).map Request.payload := by
  rw [sentTo_eq, requests, List.map_filterMap, List.map_filterMap]
  congr 1
  funext m
  rw [Moment.transmit?, Option.map_map]
  rfl

theorem moments_requests_ascending (id : Nat) (calls : List Call) :
    (requests (moments id (journal calls))).Pairwise fun r r' => r.phase.rank ≤ r'.phase.rank := by
  by_cases hnone : moments id (journal calls) = []
  · rw [hnone]
    exact List.Pairwise.nil
  · -- a target that something happened to was created
    have htold := told_journal calls
    obtain ⟨m, hm⟩ := List.exists_mem_of_ne_nil _ hnone
    obtain ⟨hmoment, rfl⟩ := mem_moments.mp hm
    obtain ⟨event, hevent, newborn, hcreated, hid⟩ := htold.moment_created hmoment
    have hlife := htold.life hevent hcreated
    rw [hid] at hlife
    exact hlife.requests_ascending (htold.newborn_sound hevent hcreated)

/-- **Requests are in sequence, and those that need a token carry it.** In every run:

* what is queued for a target goes forward through the phases, and never back;
* at most one phase of a target is waited for, whenever one looks;
* when a target requests the rules or the players of a Source or GoldSrc server, or the
  status of a server of the fourth GameSpy query, then it or the broadcast that found it
  has had the reply with the token that it asked for, and the request carries the token
  that was stored last, in the octet order of the protocol. -/
theorem requests_sequenced (calls : List Call) :
    (∀ id, (sentTo id calls).map Transmit.payload
          = (requests (moments id (journal calls))).map Request.payload ∧
        (requests (moments id (journal calls))).Pairwise
          fun r r' => r.phase.rank ≤ r'.phase.rank) ∧
      (∀ t ∈ (run calls).targets,
        t.machine.plan.countP (fun leg => leg.status == .waiting) ≤ 1) ∧
      ∀ past m rest, journal calls = past ++ .reacted m :: rest →
        m.target.machine.plan.countP (fun leg => leg.status == .waiting) ≤ 1 ∧
        m.reaction.target.machine.plan.countP (fun leg => leg.status == .waiting) ≤ 1 ∧
        ∀ r, m.reaction.request = some r →
          (m.target.protocol = .a2s → r.phase = .rules ∨ r.phase = .players →
            ∃ token, Entitled (lineage m.target.id (past ++ [.reacted m])) token ∧
              r.payload = Protocol.A2s.header ++ (if r.phase = .rules then 0x56 else 0x55)
                :: Octets.littleEndian 4 token.toUInt32.toNat) ∧
          (m.target.protocol = .gs4 → r.phase = .status →
            ∃ token, Entitled (lineage m.target.id (past ++ [.reacted m])) token ∧
              r.payload = Protocol.GameSpy4.magic ++ Protocol.GameSpy4.statusType
                :: Octets.bigEndian 4 m.reaction.target.exchange.session.sessionId.toNat
                ++ Octets.bigEndian 4 token.toUInt32.toNat ++ [0, 0, 0, 0]) := by
  refine ⟨fun id => ⟨sentTo_payloads id calls, moments_requests_ascending id calls⟩, ?_, ?_⟩
  · intro t ht
    have htold := told_journal calls
    exact (htold.traced (htold.wellKept.target?_of_mem ht)).sound.waiting_le
  · intro past m rest hsplit
    have htraced := traced_of_journal hsplit
    have hlineage : lineage m.target.id (past ++ [.reacted m])
        = lineage m.target.id past ++ [m] := by
      rw [lineage_concat, lineageStep, if_pos rfl]
    refine ⟨htraced.sound.waiting_le, htraced.react.sound.waiting_le, fun r hrequest => ⟨?_, ?_⟩⟩
    · intro hprotocol hphase
      have hneeds : r.phase ∈ m.target.protocol.capabilities.gates := by
        rw [hprotocol]
        rcases hphase with h | h
        · rw [h]
          decide
        · rw [h]
          decide
      have hnot : r.phase ≠ .challenge := by
        rintro h
        rw [h] at hphase
        rcases hphase with h | h
        · cases h
        · cases h
      obtain ⟨token, hentitled, hheld, hpayload⟩ := htraced.request hrequest hneeds hnot
      rw [hprotocol] at hpayload
      rw [hlineage]
      exact ⟨token, hentitled, a2s_request_payload hheld hphase hpayload⟩
    · intro hprotocol hphase
      have hneeds : r.phase ∈ m.target.protocol.capabilities.gates := by
        rw [hprotocol, hphase]
        decide
      have hnot : r.phase ≠ .challenge := by
        rw [hphase]
        nofun
      obtain ⟨token, hentitled, hheld, hpayload⟩ := htraced.request hrequest hneeds hnot
      rw [hprotocol, hphase] at hpayload
      rw [hlineage]
      exact ⟨token, hentitled, gs4_request_payload hheld hpayload⟩

/-- A query whose token was handed out, and whose next question was never answered. -/
def timedOut : List Call :=
  [.add .unicast "a2s" ⟨"192.0.2.1", 27015⟩ { retries := 0, wantRules := true } 0 0,
    .receive ⟨"192.0.2.1", 27015⟩ [0xFF, 0xFF, 0xFF, 0xFF, 0x41, 7, 0, 0, 0] 1,
    .tick 60000000000]

/-- The rules are asked for next, with the token. -/
theorem requests_sequenced_timed_out : ∃ past m r token,
    journal timedOut = past ++ [.reacted m] ∧ m.reaction.request = some r ∧
      r.phase = .rules ∧ Entitled (lineage m.target.id (past ++ [.reacted m])) token ∧
      r.payload = Protocol.A2s.header ++ 0x56 :: Octets.littleEndian 4 token.toUInt32.toNat := by
  have hlast : ((journal timedOut).getLast?.bind Event.moment?).map
      (fun m => (m.target.protocol, m.reaction.request.map Request.phase))
        = some (.a2s, some .rules) := by decide +kernel
  obtain ⟨m, hm, hfacts⟩ := Option.map_eq_some_iff.mp hlast
  obtain ⟨event, hevent, hmoment⟩ := Option.bind_eq_some_iff.mp hm
  obtain ⟨past, hsplit⟩ := List.getLast?_eq_some_iff.mp hevent
  obtain ⟨hprotocol, hrequest⟩ := Prod.mk.inj hfacts
  obtain ⟨r, hr, hphase⟩ := Option.map_eq_some_iff.mp hrequest
  cases event with
  | reacted m' =>
    obtain rfl : m' = m := Option.some.inj hmoment
    obtain ⟨-, -, hmoments⟩ := requests_sequenced timedOut
    obtain ⟨-, -, hgated⟩ := hmoments past m' [] hsplit
    obtain ⟨token, hentitled, hpayload⟩ := (hgated r hr).1 hprotocol (.inl hphase)
    rw [if_pos hphase] at hpayload
    exact ⟨past, m', r, token, hsplit, hr, hphase, hentitled, hpayload⟩
  | added t => cases hmoment
  | spawned parent child => cases hmoment

end Engine

end ServerProbe
