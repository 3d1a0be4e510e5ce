/-
Players and their numbers.

A player is looked up by its number, so no number may be given twice. Where the server numbers
its players a number is added only if it is new. Elsewhere the session counts: a player that is
told gets the next number, and the count goes on even if there is no room for the player. That
would tear a gap, but where there is no room the query ends. So as long as a query goes on its
players have the numbers from some start on, in order, and the count is at the number after
them (`Exchange.Counts`).

The start is zero for a query that was added. A host that answers a broadcast goes on with the
count of the broadcast, whose own start is zero; so it starts at the limit of players at most,
and all numbers stay small.
-/
import ServerProbe.Proofs.Ending
import ServerProbe.Proofs.SealedFacts
import ServerProbe.Proofs.Retaining

set_option autoImplicit false

namespace ServerProbe

open Reply

/-! ## Numbers in order -/

/-- Whether numbers are those from `start` on, in order. -/
def CountedFrom (start : Nat) (numbers : List Int32) : Prop :=
  numbers = (List.range' start numbers.length).map Int32.ofNat

namespace CountedFrom

variable {start : Nat} {numbers : List Int32}

theorem nil (start : Nat) : CountedFrom start [] := rfl

theorem concat (h : CountedFrom start numbers) :
    CountedFrom start (numbers ++ [Int32.ofNat (start + numbers.length)]) := by
  unfold CountedFrom at h ⊢
  rw [List.length_append, List.length_singleton, List.range'_1_concat, List.map_append, ← h,
    List.map_singleton]

theorem getElem? (h : CountedFrom start numbers) {i : Nat} {number : Int32}
    (hi : numbers[i]? = some number) : number = Int32.ofNat (start + i) := by
  obtain ⟨hlt, -⟩ := List.getElem?_eq_some_iff.mp hi
  rw [h, List.getElem?_map, List.getElem?_range' hlt, Nat.one_mul] at hi
  exact (Option.some.inj hi).symm

theorem toInt (h : CountedFrom start numbers) (hsmall : start + numbers.length ≤ 2 ^ 31) {i : Nat}
    {number : Int32} (hi : numbers[i]? = some number) : number.toInt = start + i := by
  obtain ⟨hlt, -⟩ := List.getElem?_eq_some_iff.mp hi
  rw [h.getElem? hi, Int32.toInt_ofNat_of_lt (by omega)]
  rfl

/-- Small numbers in order are all different. -/
theorem nodup (h : CountedFrom start numbers) (hsmall : start + numbers.length ≤ 2 ^ 31) :
    numbers.Nodup := by
  refine List.nodup_iff_getElem?_ne_getElem?.mpr fun i j hij hj heq => ?_
  have hi := List.getElem?_eq_getElem hj
  have hfirst := h.toInt hsmall (heq.trans hi)
  have hsecond := h.toInt hsmall hi
  omega

end CountedFrom

namespace Server

/-- Whether no two players have the same number. -/
def Distinct (s : Server) : Prop := (s.players.map Player.number).Nodup

/-- Whether each player has its place in the list as its number, from 0 on. -/
def InOrder (s : Server) : Prop :=
  ∀ (i : Nat) (p : Player), s.players[i]? = some p → p.number.toInt = i

end Server

/-! ## Which facts number players -/

namespace Protocol

/-- A reply is about the status, or tells a token. -/
theorem GameSpy4.yields_reply {fact : Fact → Prop} (hstatus : ∀ f : Fact, f.InStatus → fact f)
    (htoken : ∀ value, fact (.token value)) (s : Situation) :
    Yields fact (fun _ => True) (GameSpy4.reply s) := by
  refine yields_bind (yields_read _) fun kind => yields_bind (yields_read _) fun id => ?_
  refine yields_ite (yields_fail _) (yields_ite ?_ (yields_ite ?_ (yields_fail _)))
  · refine yields_bind (yields_read _) fun text => yields_bind (yields_require _ _) fun token => ?_
    exact yields_token (htoken token) s
  · refine yields_bind (yields_accept s .status) fun _ => ?_
    exact yields_bind (GameSpy4.notesStatus_fullStatus.mono hstatus fun _ h => h) fun _ =>
      yields_pure trivial

/-- Only the first GameSpy query tells players by number. -/
theorem read_ne_seen {p : Protocol} (hp : p ≠ .gamespy) (s : Situation) (payload : List UInt8) :
    ∀ f ∈ (p.read s payload).facts, ∀ number, f ≠ .seen number := by
  rw [Protocol.read, readAll_eq]
  cases p with
  | gamespy => exact absurd rfl hp
  | a2s =>
    intro f hf number heq
    obtain ⟨phase, hstands, -⟩ := ((A2s.yields_reply s).reading _).1 f hf
    subst heq
    cases hstands
  | q3 =>
    intro f hf number heq
    have hstands := ((Quake3.yields_reply s).reading _).1 f hf
    subst heq
    cases hstands
  | gs4 =>
    refine ((GameSpy4.yields_reply ?_ (fun _ _ h => by cases h) s).reading _).1
    rintro f h number rfl
    cases h

/-- And it tells no others. -/
theorem read_ne_newcomer (s : Situation) (payload : List UInt8) :
    ∀ f ∈ (gamespy.read s payload).facts, ∀ fields, f ≠ .newcomer fields := by
  rw [Protocol.read, readAll_eq]
  intro f hf fields heq
  have hstands := ((GameSpy.yields_reply s).reading _).1 f hf
  subst heq
  cases hstands

end Protocol

/-! ## What learning does to the numbers -/

namespace Exchange

/-- Whether the players have been counted from `start` on, and the next one is counted after
them. -/
structure Counts (start : Nat) (x : Exchange) : Prop where
  counted : CountedFrom start (x.server.players.map Player.number)
  next : x.session.nextPlayer = Int32.ofNat (start + x.server.players.length)

variable {policy : DuplicatePolicy} {start : Nat} {x x' : Exchange}

/-- What adds no player and counts none leaves the count as it is. -/
theorem Counts.of_same (h : x.Counts start)
    (hnumbers : x'.server.players.map Player.number = x.server.players.map Player.number)
    (hnext : x'.session.nextPlayer = x.session.nextPlayer) : x'.Counts start := by
  have hlength := congrArg List.length hnumbers
  rw [List.length_map, List.length_map] at hlength
  exact ⟨hnumbers.symm ▸ h.counted, by rw [hnext, h.next, hlength]⟩

/-- **One more fact.** The players stay counted, and so does the next one unless there was no
room for it. -/
theorem learn_counts (policy : DuplicatePolicy) {f : Fact} (hf : ∀ number, f ≠ .seen number)
    (h : x.Counts start) :
    CountedFrom start ((x.learn policy f).1.server.players.map Player.number) ∧
      ((x.learn policy f).2 = none → (x.learn policy f).1.Counts start) := by
  cases f with
  | seen number => exact absurd rfl (hf number)
  | newcomer fields =>
    rw [learn, Server.addPlayer]
    split
    · exact ⟨h.counted, fun hfit => by cases hfit⟩
    · have hcounted : CountedFrom start ((x.server.players
          ++ [Player.setAll { number := x.session.nextPlayer } fields]).map Player.number) := by
        have hconcat := h.counted.concat
        rw [List.length_map, ← h.next] at hconcat
        rwa [List.map_append, List.map_singleton, Player.number_setAll]
      refine ⟨hcounted, fun _ => ⟨hcounted, ?_⟩⟩
      show x.session.nextPlayer + 1 = Int32.ofNat (start + (x.server.players ++ [_]).length)
      rw [h.next, List.length_append, List.length_singleton, ← Nat.add_assoc]
      exact (Int32.ofNat_add _ 1).symm
  | rule name value =>
    have hsame : (x.learn policy (.rule name value)).1.Counts start := by
      obtain ⟨rules, hlearn⟩ := learn_rule policy x name value
      rw [hlearn]
      exact h.of_same rfl rfl
    exact ⟨hsame.counted, fun _ => hsame⟩
  | field number value =>
    have hsame : (x.learn policy (.field number value)).1.Counts start :=
      h.of_same (map_number_changeFirst (fun p => p.number_set value) number _) rfl
    exact ⟨hsame.counted, fun _ => hsame⟩
  | _ => exact ⟨h.counted, fun _ => h.of_same rfl rfl⟩

theorem learnAll_counts (policy : DuplicatePolicy) {facts : List Fact}
    (hfacts : ∀ f ∈ facts, ∀ number, f ≠ .seen number) (h : x.Counts start) :
    CountedFrom start ((x.learnAll policy facts).1.server.players.map Player.number) ∧
      ((x.learnAll policy facts).2 = none → (x.learnAll policy facts).1.Counts start) := by
  induction facts generalizing x with
  | nil => exact ⟨h.counted, fun _ => h⟩
  | cons f rest ih =>
    have hfirst := learn_counts policy (hfacts f List.mem_cons_self) h
    rw [learnAll]
    rcases hlearn : x.learn policy f with ⟨x', _ | fault⟩
    · rw [hlearn] at hfirst
      exact ih (fun g hg => hfacts g (List.mem_cons_of_mem f hg)) (hfirst.2 rfl)
    · rw [hlearn] at hfirst
      exact ⟨hfirst.1, fun hfit => by cases hfit⟩

/-- **One more fact** about players that the server numbers: no number comes a second time. -/
theorem learn_distinct {f : Fact} (hf : ∀ fields, f ≠ .newcomer fields)
    (h : x.server.Distinct) : (x.learn policy f).1.server.Distinct := by
  cases f with
  | newcomer fields => exact absurd rfl (hf fields)
  | seen number =>
    rw [learn, Server.ensurePlayer_eq]
    split
    · exact h
    · show ((playersWith number x.server.players).map Player.number).Nodup
      rw [map_number_playersWith]
      split
      · exact h
      · rename_i hnew
        refine List.nodup_append.mpr ⟨h, List.nodup_singleton number, ?_⟩
        rintro a ha b hb rfl
        exact hnew ⟨not_false, List.mem_singleton.mp hb ▸ ha⟩
  | rule name value =>
    obtain ⟨rules, hlearn⟩ := learn_rule policy x name value
    rw [hlearn]
    exact h
  | field number value =>
    show ((changeFirst number _ x.server.players).map Player.number).Nodup
    rw [map_number_changeFirst fun p => p.number_set value]
    exact h
  | _ => exact h

/-! ## What a payload does to the numbers -/

/-- A payload that is not broken leaves players that are counted. -/
theorem receive_counts {p : Protocol} (hp : p ≠ .gamespy) (h : x.Counts start)
    (params : RequestParams) (current : Option Phase) (closed : PhaseSet)
    (payload : List UInt8) :
    let result := x.receive p params current closed payload
    CountedFrom start (result.1.server.players.map Player.number) ∧
      ((∀ kind, result.2.outcome = .error kind → kind.isFatal = false) →
        result.1.Counts start) := by
  dsimp only
  rw [receive_eq]
  have hfacts := p.read_ne_seen hp ⟨current, closed, x.session⟩ payload
  generalize p.read ⟨current, closed, x.session⟩ payload = reading at hfacts ⊢
  obtain ⟨hcounted, hkept⟩ := learnAll_counts params.rulePolicy hfacts h
  refine ⟨by rwa [apply_server], fun hintact => ?_⟩
  have hfit : (x.learnAll params.rulePolicy reading.facts).2 = none := by
    rcases x.apply_cases params.rulePolicy reading with
      ⟨x', fault, hlearn, happly⟩ | ⟨x', fault, hlearn, -⟩ | ⟨x', ending, hlearn, -⟩
    · -- running out of room would be fatal
      have hfatal := learnAll_fault (congrArg Prod.snd hlearn)
      rw [hintact fault.kind (by rw [happly]; rfl)] at hfatal
      cases hfatal
    · rw [hlearn]
    · rw [hlearn]
  refine (hkept hfit).of_same ?_ ?_
  · rw [apply_server]
  · rw [apply_session]

theorem receive_distinct (h : x.server.Distinct) (params : RequestParams)
    (current : Option Phase) (closed : PhaseSet) (payload : List UInt8) :
    (x.receive .gamespy params current closed payload).1.server.Distinct := by
  rw [receive_eq]
  rw [apply_server]
  exact learnAll_keeps (P := fun x' => x'.server.Distinct)
    (fun x' f hf hx' => learn_distinct (Protocol.read_ne_newcomer _ payload f hf) hx') h

end Exchange

/-! ## The players of a target -/

namespace Target

/-- Whether the players of a target are told apart by their numbers, and have their places as
numbers if the server does not number them and no broadcast found the target. -/
structure Listed (t : Target) : Prop where
  distinct : t.exchange.server.Distinct
  inOrder : t.protocol ≠ .gamespy → t.parent = none → t.exchange.server.InOrder

/-- Whether a target can go on to list players. A broadcast counts from zero, since hosts that
answer it go on from where it is. -/
structure Rostered (t : Target) : Prop where
  limits : t.exchange.server.WithinLimits
  distinct : t.protocol = .gamespy → t.exchange.server.Distinct
  counts : t.protocol ≠ .gamespy → ∃ start ≤ playerLimit,
    (t.parent = none ∨ t.mode = .broadcast → start = 0) ∧ t.exchange.Counts start

variable {t : Target}

theorem listed_of_counted (hlimits : t.exchange.server.WithinLimits)
    (hdistinct : t.protocol = .gamespy → t.exchange.server.Distinct)
    (hcounted : t.protocol ≠ .gamespy → ∃ start ≤ playerLimit,
      (t.parent = none ∨ t.mode = .broadcast → start = 0) ∧
      CountedFrom start (t.exchange.server.players.map Player.number)) : t.Listed := by
  have hlimit : playerLimit = 1024 := rfl
  have hlength := hlimits.players
  by_cases hp : t.protocol = .gamespy
  · exact ⟨hdistinct hp, fun hother => absurd hp hother⟩
  · obtain ⟨start, hstart, hzero, hcounted⟩ := hcounted hp
    have hsmall : start + (t.exchange.server.players.map Player.number).length ≤ 2 ^ 31 := by
      rw [List.length_map]
      omega
    refine ⟨hcounted.nodup hsmall, fun _ hparent i p hi => ?_⟩
    obtain rfl := hzero (.inl hparent)
    have hnumber := hcounted.toInt hsmall (List.getElem?_map ▸ congrArg (Option.map _) hi)
    rw [hnumber]
    simp

theorem Rostered.listed (h : t.Rostered) : t.Listed := by
  refine listed_of_counted h.limits h.distinct fun hp => ?_
  obtain ⟨start, hstart, hzero, hcounts⟩ := h.counts hp
  exact ⟨start, hstart, hzero, hcounts.counted⟩

theorem Rostered.fresh (id : Nat) (address : Address) (mode : TargetMode) (p : Protocol)
    (config : Config) (nonce : UInt32) :
    (Target.fresh id address mode p config nonce).Rostered := by
  refine ⟨⟨Nat.zero_le _, Nat.zero_le _⟩, fun _ => List.nodup_nil, fun _ => ?_⟩
  refine ⟨0, Nat.zero_le _, fun _ => rfl, .nil 0, ?_⟩
  cases p <;> rfl

/-- A host that answers a broadcast starts after the players of the broadcast. -/
theorem Rostered.child (h : t.Rostered) (hmode : t.mode = .broadcast) (id : Nat)
    (address : Address) : (t.child id address).Rostered := by
  refine ⟨⟨Nat.zero_le _, Nat.zero_le _⟩, fun _ => List.nodup_nil, fun hp => ?_⟩
  obtain ⟨start, -, hzero, hcounts⟩ := h.counts hp
  obtain rfl := hzero (.inr hmode)
  refine ⟨t.exchange.server.players.length, h.limits.players, ?_, .nil _, ?_⟩
  · rintro (hparent | hmode)
    · cases hparent
    · cases hmode
  · exact hcounts.next.trans (by rw [Nat.zero_add]; rfl)

/-- **Whatever happens to a target, its players are told apart,** and if it goes on it can go on
to list players. -/
theorem Rostered.react (h : t.Rostered) (cue : Cue) :
    (t.react cue).target.Listed ∧
      ((t.react cue).fate = .goesOn → (t.react cue).target.Rostered) := by
  have hidentity := t.react_identity cue
  have hprotocol : (t.react cue).target.protocol = t.protocol :=
    congrArg Identity.protocol hidentity
  have hparent : (t.react cue).target.parent = t.parent := congrArg Identity.parent hidentity
  have hmode : (t.react cue).target.mode = t.mode := congrArg Identity.mode hidentity
  rcases t.react_exchange cue with hexchange | ⟨payload, now, rfl, hexchange⟩
  · have hrostered : (t.react cue).target.Rostered := by
      refine ⟨?_, ?_, ?_⟩
      · rw [hexchange]; exact h.limits
      · rw [hexchange, hprotocol]; exact h.distinct
      · rw [hexchange, hprotocol, hparent, hmode]; exact h.counts
    exact ⟨hrostered.listed, fun _ => hrostered⟩
  · have hlimits : (t.react (.hear payload now)).target.exchange.server.WithinLimits := by
      rw [hexchange, t.exchanged_eq]
      exact (Exchange.apply_retains t.config.rulePolicy t.exchange _).limits h.limits
    have hdistinct : (t.react (.hear payload now)).target.protocol = .gamespy →
        (t.react (.hear payload now)).target.exchange.server.Distinct := by
      rw [hexchange, hprotocol, exchanged]
      intro hp
      rw [hp]
      exact Exchange.receive_distinct (h.distinct hp) _ _ _ payload
    have hreceived : t.protocol ≠ .gamespy → ∃ start ≤ playerLimit,
        (t.parent = none ∨ t.mode = .broadcast → start = 0) ∧
        CountedFrom start ((t.exchanged payload).1.server.players.map Player.number) ∧
        ((∀ kind, (t.exchanged payload).2.outcome = .error kind → kind.isFatal = false) →
          (t.exchanged payload).1.Counts start) := by
      intro hp
      obtain ⟨start, hstart, hzero, hcounts⟩ := h.counts hp
      exact ⟨start, hstart, hzero, Exchange.receive_counts hp hcounts _ _ _ payload⟩
    refine ⟨listed_of_counted hlimits hdistinct ?_, fun hgoesOn => ⟨hlimits, hdistinct, ?_⟩⟩
    · rw [hexchange, hprotocol, hparent, hmode]
      intro hp
      obtain ⟨start, hstart, hzero, hcounted, -⟩ := hreceived hp
      exact ⟨start, hstart, hzero, hcounted⟩
    · rw [hexchange, hprotocol, hparent, hmode]
      intro hp
      obtain ⟨start, hstart, hzero, -, hcounts⟩ := hreceived hp
      refine ⟨start, hstart, hzero, hcounts fun kind houtcome => ?_⟩
      -- a fatal fault would have ended the target
      rcases hfatal : kind.isFatal with _ | _
      · rfl
      · cases (hear_fatal hfatal houtcome).symm.trans hgoesOn

end Target

/-! ## The players in a run -/

namespace Engine

/-- A target that a run meets can go on to list players. -/
theorem Meets.rostered {calls : List Call} {t : Target} (h : Meets calls t) : t.Rostered :=
  Meets.every (P := Target.Rostered) .fresh (fun _ _ ht => ⟨ht.limits, ht.distinct, ht.counts⟩)
    (fun _ id address hmode ht => ht.child hmode id address)
    (fun m ht hgoesOn => (ht.react m.cue).2 hgoesOn) h

/-- Whenever something happens to a target, it can go on to list players. -/
theorem rostered_of_journal {calls : List Call} {m : Moment} (h : .reacted m ∈ journal calls) :
    m.target.Rostered :=
  Meets.rostered (.inr ⟨m, h, rfl⟩)

theorem rostered_of_run {calls : List Call} {id : Nat} {t : Target}
    (h : (run calls).target? id = some t) : t.Rostered :=
  Meets.rostered (.inl (target?_mem h).1)

/-- **Players go by their numbers.** In every state that a run leads to and in every report the
players of one target have different numbers. Where the protocol does not number players, each
player of a target that was added has its place in the list as its number. -/
theorem players_numbered (calls : List Call) :
    ((∀ t ∈ (run calls).targets, t.exchange.server.Distinct) ∧
      ∀ report ∈ reported calls, report.server.Distinct) ∧
    ∀ (before later : List Call) (mode : TargetMode) (protocol : String) (address : Address)
      (config : Config) (nonce : UInt32) (now : Instant) (id : Nat) (p : Protocol),
      calls = before ++ .add mode protocol address config nonce now :: later →
      ((run before).perform (.add mode protocol address config nonce now)).2 = .added id →
      Protocol.ofId? protocol = some p → p ≠ .gamespy →
      (∀ t, (run calls).target? id = some t → t.exchange.server.InOrder) ∧
      ∀ report ∈ reportsOn id calls, report.server.InOrder := by
  refine ⟨⟨fun t ht => ?_, fun report hreport => ?_⟩, ?_⟩
  · exact (rostered_of_run ((told_journal calls).wellKept.target?_of_mem ht)).listed.distinct
  · obtain ⟨m, hm, hreport⟩ := moment_of_reported hreport
    obtain ⟨-, status, rfl⟩ := Moment.report?_eq hreport
    exact ((rostered_of_journal hm).react m.cue).1.distinct
  · rintro before later mode protocol address config nonce now id p rfl hadded hp hother
    obtain ⟨p', hp', hlife⟩ := life_of_added later hadded
    obtain rfl : p' = p := Option.some.inj (hp'.symm.trans hp)
    refine ⟨fun t ht => ?_, fun report hreport => ?_⟩
    · rw [ht] at hlife
      have hidentity := hlife.identity
      refine (rostered_of_run ht).listed.inOrder ?_ (congrArg Identity.parent hidentity)
      exact (congrArg Identity.protocol hidentity).trans_ne hother
    · obtain ⟨past, m, hmoments, hbefore, hreport⟩ := life_of_reportsOn hlife hreport
      have hm : .reacted m ∈ journal _ :=
        (mem_moments.mp (hmoments ▸ List.mem_append_right past (List.mem_singleton_self m))).1
      have hidentity := (m.target.react_identity m.cue).trans hbefore.identity
      obtain ⟨-, status, rfl⟩ := Moment.report?_eq hreport
      refine ((rostered_of_journal hm).react m.cue).1.inOrder ?_
        (congrArg Identity.parent hidentity)
      exact (congrArg Identity.protocol hidentity).trans_ne hother

/-- A query whose reply breaks off after two players. -/
def brokenOff : List Call :=
  [.add .unicast "q3" ⟨"192.0.2.1", 27960⟩ {} 0 0,
    .receive ⟨"192.0.2.1", 27960⟩ (Protocol.Quake3.header ++ Text.Utf8.encode
      "statusResponse\n\\mapname\\q3dm17\n5 20 \"Ranger\"\n3 48 \"Visor\"\n7 \"Doom".toList) 1]

/-- The report lists the two players, as numbers 0 and 1. -/
theorem players_numbered_brokenOff :
    (∀ report ∈ reportsOn 1 brokenOff, report.server.InOrder) ∧
    (reportsOn 1 brokenOff).map (fun report =>
      (report.status, report.server.players.map fun p => (p.number, p.name)))
      = [(.error .malformedPacket, [(0, "Ranger"), (1, "Visor")])] := by
  obtain ⟨-, hadded⟩ := players_numbered brokenOff
  obtain ⟨-, hreports⟩ := hadded [] (brokenOff.drop 1) .unicast "q3" ⟨"192.0.2.1", 27960⟩ {} 0 0 1
    .q3 rfl (by decide +kernel) (by decide +kernel) nofun
  exact ⟨hreports, by decide +kernel⟩

end Engine

end ServerProbe
