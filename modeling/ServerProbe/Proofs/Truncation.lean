/-
A reply that is cut short is noticed.

A payload that was accepted and read to its end has needed all of its octets, if its reader is
strict. So whatever is cut off, the reader of the rest finds something missing; and what it
has told before was learned from the whole as well, so there is no other fault
(`receive_runsOut`). Replies of Minecraft servers are read strictly throughout, those of Source
servers with one exception: a status in the Source layout may end where further fields would
be announced (`lacks_source`). The part up to there is a status of its own, and there is one
such place at most (`Announces.eq`).
-/
import ServerProbe.Proofs.Decoding
import ServerProbe.Proofs.Exchange
import ServerProbe.Proofs.Strictness

set_option autoImplicit false

namespace ServerProbe

open Reply

/-! ## Source and GoldSrc -/

namespace Protocol.A2s

section Strictness

variable {s : Situation} {r : Reader}

/-- A status in the compact layout is read strictly. -/
theorem strictAt_compact (h : r.peek? = some 0) : StrictAt status r := by
  unfold status
  refine strictAt_bind (strict_uint8 r) fun noted protocol r' noted' hread => ?_
  obtain ⟨rest, hrest, -⟩ := Reader.uint8_eq_ok_iff.mp (read_eq_next_iff.mp hread).1
  obtain rfl : protocol = 0 := by
    rw [Reader.peek?, hrest, List.head?_cons] at h
    exact Option.some.inj h
  refine strict_bind strict_cstring (fun name => strict_bind strict_cstring fun map => ?_) r'
  rw [if_pos rfl]
  exact strict_compactStatus name map

/-- So is everything that is not a status in the Source layout. -/
theorem strictAt_status (h : ¬∃ (head : SourceHead) (more : List UInt8),
    r.rest = head.octets ++ more) : StrictAt status r := by
  by_cases hcompact : r.peek? = some 0
  · exact strictAt_compact hcompact
  · intro noted a r' noted' hrun
    rw [status_eq hcompact] at hrun
    obtain ⟨_, r₁, noted₁, hhead, -⟩ := bind_eq_next_iff.mp hrun
    obtain ⟨head, hrest⟩ := exists_sourceHead hcompact hhead
    exact absurd ⟨head, r₁.rest, hrest⟩ h

theorem strictAt_answer {phase : Phase} {body : Reply Unit} (h : StrictAt body r) :
    StrictAt (answer s phase body) r := by
  unfold answer
  refine strictAt_bind (strict_accept s phase r) fun noted _ r' noted' haccept => ?_
  obtain rfl : r' = r := by
    unfold accept at haccept
    split at haccept
    · cases haccept
    · exact (pure_eq_next_iff.mp haccept).2.1
  exact strictAt_bind h fun _ _ r' _ _ => strict_pure _ r'

theorem strictAt_single (h : ¬∃ (head : SourceHead) (more : List UInt8),
    r.rest = 0x49 :: (head.octets ++ more)) : StrictAt (single s) r := by
  unfold single
  refine strictAt_bind (strict_uint8 r) fun noted kind r' noted' hread => ?_
  by_cases hstatus : kind = 0x49
  · subst hstatus
    rw [if_neg (by decide), if_pos rfl]
    refine strictAt_answer (strictAt_bind (strictAt_status ?_) fun _ _ r' _ _ => strict_note _ r')
    rintro ⟨head, more, hrest⟩
    obtain ⟨rest, hkind, rfl⟩ := Reader.uint8_eq_ok_iff.mp (read_eq_next_iff.mp hread).1
    exact h ⟨head, more, hkind.trans (congrArg _ hrest)⟩
  · rw [if_neg hstatus]
    refine strict_ite (strict_challenge s) (strict_ite (fun r => strictAt_answer ?_) ?_) r'
    · exact strict_bind strict_goldSrcStatus (fun _ => strict_note _) r
    · refine strict_ite (fun r => strictAt_answer ?_) (strict_ite (fun r => strictAt_answer ?_) ?_)
      · exact strict_bind strict_uint16LE (fun count => strict_rules count.toNat) r
      · exact strict_bind strict_uint8 (fun count => strict_players count.toNat) r
      · exact strict_fail _

/-- A reply that answers a phase has needed all that it passed, or it is a status in the Source
layout. -/
theorem needs_or_source {payload : List UInt8} {answered : PhaseSet} {sealing : Bool}
    {noted : List Fact}
    (h : reply s (Reader.ofPayload payload) [] = .next (.done answered sealing) r noted) :
    (∃ octets facts, payload = octets ++ r.rest ∧ noted = facts.reverse ∧
      Needs (reply s) octets (.done answered sealing) facts) ∨
    ∃ (head : SourceHead) (more : List UInt8),
      payload = header ++ 0x49 :: (head.octets ++ more) := by
  obtain ⟨marker, r₁, noted₁, hread, hnext⟩ := bind_eq_next_iff.mp h
  obtain ⟨hmarker, rfl⟩ := read_eq_next_iff.mp hread
  have hpayload := Reader.rest_of_int32LE hmarker
  by_cases hsingle : marker = -1
  · subst hsingle
    rw [if_pos rfl] at hnext
    by_cases hsource : ∃ (head : SourceHead) (more : List UInt8),
        r₁.rest = 0x49 :: (head.octets ++ more)
    · obtain ⟨head, more, hrest⟩ := hsource
      exact .inr ⟨head, more, hpayload.trans (congrArg _ hrest)⟩
    · obtain ⟨octets, facts, hrest, hnoted, hneeds⟩ := strictAt_single hsource _ _ _ _ hnext
      refine .inl ⟨header ++ octets, facts, ?_, by simpa using hnoted, needs_header.bind hneeds⟩
      rw [List.append_assoc, ← hrest]
      exact hpayload
  · rw [if_neg hsingle] at hnext
    by_cases hsplit : marker = -2
    · rw [if_pos hsplit] at hnext
      have hyields := yields_split s r₁ []
      rw [hnext] at hyields
      exact absurd rfl (hyields.1 answered sealing)
    · rw [if_neg hsplit] at hnext
      cases hnext

end Strictness

/-! ### The Source layout cut short -/

section Source

variable {head : SourceHead} {more : List UInt8} {r : Reader} {noted noted' : List Fact}

/-- The further fields may be cut off as a whole, but not in part. -/
theorem lacks_extraFields {pos : Nat} (h : extraFields ⟨pos, more⟩ noted = .next () r noted')
    (hall : r.rest = []) :
    ∃ told, noted' = told.reverse ++ noted ∧
      Lacks extraFields more told fun cut => cut = more ∨ cut = [] := by
  rcases more with _ | ⟨flags, more⟩
  · cases h
    exact ⟨[], rfl, fun cut hcut hnot => absurd (.inl (List.prefix_nil.mp hcut)) hnot⟩
  · have hskip := bind_next (k := fun _ => portField flags)
      ((needs_skip [flags]).reads more pos noted)
    rw [extraFields_eq, bind_next (m := peek?) rfl] at h
    obtain ⟨octets, told, hrest, rfl, hneeds⟩ :=
      strict_portField flags _ _ _ _ _ (hskip.symm.trans h)
    rw [hall, List.append_nil] at hrest
    obtain rfl : more = octets := hrest
    refine ⟨told, rfl, fun cut hcut hnot pos noted => ?_⟩
    rcases cut with _ | ⟨flags', cut⟩
    · exact absurd (.inr rfl) hnot
    · obtain ⟨rfl, htail⟩ := List.cons_prefix_cons.mp hcut
      have hruns := hneeds.lacks cut htail fun hall => hnot (.inl (by rw [hall]))
      rw [extraFields_eq, bind_next (m := peek?) rfl]
      exact ((needs_skip [flags']).reads cut).bind_runsOut hruns pos noted

theorem lacks_status {pos : Nat} (h : status ⟨pos, head.octets ++ more⟩ noted = .next () r noted')
    (hall : r.rest = []) :
    ∃ told, noted' = (head.facts ++ told).reverse ++ noted ∧
      Lacks status (head.octets ++ more) (head.facts ++ told)
        fun cut => cut = head.octets ++ more ∨ cut = head.octets := by
  have hprotocol : ∀ {pos rest}, rest <+: head.octets ++ more →
      (⟨pos, rest⟩ : Reader).peek? ≠ some 0 := by
    rintro pos (_ | ⟨protocol, rest⟩) hrest
    · nofun
    · obtain ⟨rfl, -⟩ := List.cons_prefix_cons.mp hrest
      exact fun hzero => head.known (Option.some.inj hzero)
  have hhead := needs_statusHead head
  rw [status_eq (hprotocol List.prefix_rfl), bind_next (hhead.reads more pos noted)] at h
  obtain ⟨told, rfl, hlacks⟩ := lacks_extraFields h hall
  refine ⟨told, by rw [List.reverse_append, List.append_assoc], fun cut hcut hnot pos noted => ?_⟩
  rw [status_eq (hprotocol hcut)]
  refine hhead.lacks_bind (k := fun _ => extraFields) hlacks cut hcut ?_ pos noted
  rintro ⟨tail, rfl | rfl, rfl⟩
  · exact hnot (.inl rfl)
  · exact hnot (.inr (List.append_nil _))

theorem lacks_answer {s : Situation} {phase : Phase} {body : Reply Unit} {octets : List UInt8}
    {facts : List Fact} {enough : List UInt8 → Prop} (hopen : phase ∉ s.sealed)
    (h : Lacks body octets facts enough) : Lacks (answer s phase body) octets facts enough := by
  intro cut hcut hnot pos noted
  obtain ⟨e, early, hearly, hrun⟩ := h cut hcut hnot pos noted
  refine ⟨e, early, hearly, ?_⟩
  rw [answer, bind_accept_open hopen]
  exact bind_stop hrun

/-- A status in the Source layout, cut short, is found wanting, unless all further fields have
been cut off. -/
theorem lacks_source {s : Situation} {ending : Ending}
    (h : reply s (Reader.ofPayload (header ++ 0x49 :: (head.octets ++ more))) []
      = .next ending r noted) (hall : r.rest = []) :
    .status ∉ s.sealed ∧ ∃ told, noted = (head.facts ++ told).reverse ∧
      Lacks (reply s) (header ++ 0x49 :: (head.octets ++ more)) (head.facts ++ told)
        fun cut => cut = header ++ 0x49 :: (head.octets ++ more) ∨
          cut = header ++ 0x49 :: head.octets := by
  let body : Reply Unit := status >>= fun _ => note (.revision sourceRevision)
  have hmarker := needs_header.reads (0x49 :: (head.octets ++ more)) 0 []
  have hkind := (needs_uint8 0x49).reads (head.octets ++ more) 4 []
  have hbody : answer s .status body ⟨5, head.octets ++ more⟩ [] = .next ending r noted :=
    (bind_next hkind).symm.trans ((bind_next hmarker).symm.trans h)
  unfold answer at hbody
  by_cases hsealed : Phase.status ∈ s.sealed
  · rw [bind_accept_sealed hsealed] at hbody
    cases hbody
  · rw [bind_accept_open hsealed] at hbody
    obtain ⟨_, r₂, noted₂, hnoting, hending⟩ := bind_eq_next_iff.mp hbody
    obtain ⟨-, rfl, rfl⟩ := pure_eq_next_iff.mp hending
    obtain ⟨_, r₁, noted₁, hstatus, hrevision⟩ := bind_eq_next_iff.mp hnoting
    cases hrevision
    obtain ⟨told, rfl, hlacks⟩ := lacks_status hstatus hall
    refine ⟨hsealed, told ++ [.revision sourceRevision], by simp, ?_⟩
    have hnoted := hlacks.bind (k := fun _ => note (.revision sourceRevision))
      [.revision sourceRevision]
    have hsingle : Lacks (single s) ([0x49] ++ (head.octets ++ more)) _ _ :=
      (needs_uint8 0x49).lacks_bind (lacks_answer hsealed hnoted)
    have hreply : Lacks (reply s) (header ++ _) _ _ := needs_header.lacks_bind hsingle
    rw [← List.append_assoc]
    refine hreply.mono ?_
    rintro cut ⟨_, ⟨tail, rfl | rfl, rfl⟩, rfl⟩
    · exact .inl rfl
    · exact .inr rfl

end Source

/-- A payload is a status in the Source layout with an octet that announces further fields, and
that octet stands right after `cut`. -/
def Announces (payload cut : List UInt8) : Prop :=
  ∃ (head : SourceHead) (flags : UInt8) (more : List UInt8),
    cut = header ++ 0x49 :: head.octets ∧ payload = cut ++ flags :: more

/-- There is at most one such octet. -/
theorem Announces.eq {payload cut cut' : List UInt8} (h : Announces payload cut)
    (h' : Announces payload cut') : cut = cut' := by
  obtain ⟨head, flags, more, rfl, hpayload⟩ := h
  obtain ⟨head', flags', more', rfl, hpayload'⟩ := h'
  have hsame : head.octets = head'.octets := by
    have htails : head.octets ++ flags :: more = head'.octets ++ flags' :: more' := by
      simpa using hpayload.symm.trans hpayload'
    rcases List.prefix_or_prefix_of_prefix (List.prefix_append head.octets (flags :: more))
        (htails ▸ List.prefix_append head'.octets (flags' :: more')) with hbegins | hbegins
    · exact (needs_statusHead head).prefix_free (needs_statusHead head') hbegins
    · exact ((needs_statusHead head').prefix_free (needs_statusHead head) hbegins).symm
  rw [hsame]

/-- A reply that answers a phase is found wanting when it is cut short, unless it is cut right
before the octet that announces further fields. -/
theorem lacks_reply {s : Situation} {payload : List UInt8} {answered : PhaseSet}
    {sealing : Bool} {r : Reader} {noted : List Fact}
    (h : reply s (Reader.ofPayload payload) [] = .next (.done answered sealing) r noted)
    (hall : r.rest = []) :
    ∃ facts, noted = facts.reverse ∧
      Lacks (reply s) payload facts fun cut => cut = payload ∨ Announces payload cut := by
  rcases needs_or_source h with ⟨octets, facts, hpayload, hnoted, hneeds⟩ | ⟨head, more, rfl⟩
  · rw [hall, List.append_nil] at hpayload
    subst hpayload
    exact ⟨facts, hnoted, hneeds.lacks.mono fun _ => .inl⟩
  · obtain ⟨-, told, hnoted, hlacks⟩ := lacks_source h hall
    refine ⟨head.facts ++ told, hnoted, hlacks.mono ?_⟩
    rintro cut (hpayload | rfl)
    · exact .inl hpayload
    · rcases more with _ | ⟨flags, more⟩
      · exact .inl (by rw [List.append_nil])
      · exact .inr ⟨head, flags, more, rfl, by simp⟩

end Protocol.A2s

/-! ## Replies that are cut short -/

namespace Exchange

variable {x : Exchange} {p : Protocol} {params : RequestParams} {current : Option Phase}
  {closed : PhaseSet} {payload : List UInt8}

/-- What becomes of a payload whose facts are all learned is how its reading ended. -/
theorem outcome_apply {reading : Reading}
    (h : (x.learnAll params.rulePolicy reading.facts).2 = none) :
    (x.apply params.rulePolicy reading).2.outcome
      = match reading.ending with
        | .error fault => fault.outcome
        | .ok (.done _ sealing) => .done sealing
        | .ok _ => .inProgress := by
  rcases x.apply_cases params.rulePolicy reading with ⟨x', fault, hlearn, -⟩ |
    ⟨x', fault, -, hending, happly⟩ | ⟨x', ending, -, hending, happly⟩
  · rw [hlearn] at h
    cases h
  · rw [happly, hending]
    rfl
  · rw [happly, hending]
    cases ending <;> rfl

/-- A payload that answers something has been read without a fault, and its facts have been
learned without one. -/
theorem apply_of_done {reading : Reading} {sealing : Bool}
    (h : (x.apply params.rulePolicy reading).2.outcome = .done sealing) :
    (x.learnAll params.rulePolicy reading.facts).2 = none ∧
      ∃ answered, reading.ending = .ok (.done answered sealing) := by
  rcases x.apply_cases params.rulePolicy reading with ⟨x', fault, -, happly⟩ |
    ⟨x', fault, -, -, happly⟩ | ⟨x', ending, hlearn, hending, happly⟩
  · rw [happly] at h
    cases h
  · rw [happly] at h
    cases h
  · rw [happly] at h
    cases ending with
    | done answered sealing' =>
      obtain rfl : sealing' = sealing := Outcome.done.inj h
      exact ⟨congrArg Prod.snd hlearn, answered, hending⟩
    | more resend => cases h
    | piece series index count payload => cases h

/-- A payload in which something is missing is malformed, if what can be read is learned. -/
theorem receive_runsOut {facts : List Fact}
    (h : RunsOut (p.reply ⟨current, closed, x.session⟩) payload facts)
    (hlearned : (x.learnAll params.rulePolicy facts).2 = none) :
    (x.receive p params current closed payload).2.outcome = .error .malformedPacket := by
  obtain ⟨e, early, ⟨late, rfl⟩, hrun⟩ := h 0 []
  have hread : p.read ⟨current, closed, x.session⟩ payload = ⟨early, .error (.unreadable e)⟩ := by
    rw [Protocol.read, readAll_eq, Reader.ofPayload, hrun, Step.reading, List.append_nil,
      List.reverse_reverse]
  rw [receive_eq, hread, outcome_apply (learnAll_kept_left hlearned)]
  rfl

/-- A status in the Source layout ends where it may, if all that is known from it is learned. -/
theorem receive_unannounced {head : Protocol.A2s.SourceHead} (hopen : Phase.status ∉ closed)
    (hlearned : (x.learnAll params.rulePolicy head.facts).2 = none) :
    (x.receive .a2s params current closed
      (Protocol.A2s.header ++ 0x49 :: head.octets)).2.outcome = .done true := by
  let status := Protocol.A2s.Answer.source head none
  have hoctets : status.octets = Protocol.A2s.header ++ 0x49 :: head.octets := by
    simp [status, Protocol.A2s.Answer.octets, Protocol.A2s.Answer.body]
  have hfacts : status.content.facts
      = head.facts ++ [.revision Protocol.A2s.sourceRevision] := by
    simp [status, Protocol.A2s.Answer.content, Content.facts, Protocol.A2s.SourceHead.facts]
  have hkept : (x.learnAll params.rulePolicy status.content.facts).2 = none := by
    rw [hfacts, learnAll_append, learnAll_of_kept hlearned]
    rfl
  rw [← hoctets, receive_eq, Protocol.A2s.read_answer status hopen, outcome_apply hkept]

end Exchange

namespace Protocol

/-- A payload is read without a fault and to its end. -/
def ReadsWhole (p : Protocol) (s : Situation) (payload : List UInt8) : Prop :=
  ∃ ending r noted, p.reply s (Reader.ofPayload payload) [] = .next ending r noted ∧ r.rest = []

/-- **A reply that is cut short is noticed.** Let a payload for a Source or Minecraft server be
read to its end and answer something for good. Each part that it starts with is malformed in
the same situation, with one exception: a status in the Source layout may be cut right before
the octet that announces further fields. That is one place at most, and what stands before it
is accepted. -/
theorem receive_cut_short {p : Protocol} (hp : p = .a2s ∨ p = .gs4) {x : Exchange}
    {params : RequestParams} {current : Option Phase} {closed : PhaseSet}
    {payload : List UInt8}
    (hdone : (x.receive p params current closed payload).2.outcome = .done true)
    (hwhole : p.ReadsWhole ⟨current, closed, x.session⟩ payload) :
    (∀ cut, cut <+: payload → cut ≠ payload →
      (p = .a2s ∧ A2s.Announces payload cut →
        (x.receive p params current closed cut).2.outcome = .done true) ∧
      (¬(p = .a2s ∧ A2s.Announces payload cut) →
        (x.receive p params current closed cut).2.outcome = .error .malformedPacket)) ∧
    ∀ cut cut', A2s.Announces payload cut → A2s.Announces payload cut' → cut = cut' := by
  refine ⟨fun cut hcut hne => ?_, fun cut cut' h h' => h.eq h'⟩
  obtain ⟨ending, r, noted, hrun, hall⟩ := hwhole
  have hread : p.read ⟨current, closed, x.session⟩ payload = ⟨noted.reverse, .ok ending⟩ := by
    rw [Protocol.read, readAll_eq, hrun, Step.reading]
  rw [Exchange.receive_eq] at hdone
  obtain ⟨hlearned, answered, hending⟩ := Exchange.apply_of_done hdone
  rw [hread] at hlearned hending
  obtain rfl : ending = .done answered true := Except.ok.inj hending
  constructor
  · rintro ⟨rfl, head, flags, more, rfl, rfl⟩
    have hsource : A2s.header ++ 0x49 :: head.octets ++ flags :: more
        = A2s.header ++ 0x49 :: (head.octets ++ flags :: more) := by
      rw [List.append_assoc, List.cons_append]
    rw [hsource] at hrun
    obtain ⟨hopen, told, rfl, -⟩ := A2s.lacks_source hrun hall
    rw [List.reverse_reverse] at hlearned
    exact Exchange.receive_unannounced hopen (Exchange.learnAll_kept_left hlearned)
  · intro hnot
    obtain ⟨facts, rfl, hlacks⟩ : ∃ facts, noted = facts.reverse ∧
        Lacks (p.reply ⟨current, closed, x.session⟩) payload facts
          fun cut => cut = payload ∨ p = .a2s ∧ A2s.Announces payload cut := by
      rcases hp with rfl | rfl
      · obtain ⟨facts, hnoted, hlacks⟩ := A2s.lacks_reply hrun hall
        exact ⟨facts, hnoted, hlacks.mono fun cut => Or.imp_right fun h => ⟨rfl, h⟩⟩
      · obtain ⟨octets, facts, hrest, hnoted, hneeds⟩ := GameSpy4.strict_reply _ _ _ _ _ _ hrun
        obtain rfl : payload = octets := by rwa [hall, List.append_nil] at hrest
        exact ⟨facts, by simpa using hnoted, hneeds.lacks.mono fun _ => .inl⟩
    rw [List.reverse_reverse] at hlearned
    exact Exchange.receive_runsOut (hlacks cut hcut (not_or.mpr ⟨hne, hnot⟩)) hlearned

/-- The status of a server that tells nothing but numbers. -/
def A2s.bareHead : A2s.SourceHead where
  protocol := 7
  known := by decide
  name := ⟨[], List.not_mem_nil⟩
  map := ⟨[], List.not_mem_nil⟩
  folder := ⟨[], List.not_mem_nil⟩
  game := ⟨[], List.not_mem_nil⟩
  appId := 240
  numPlayers := 3
  maxPlayers := 12
  bots := 0
  serverType := 0x64
  environment := 0x6C
  visibility := 0
  secure := 1
  ship := (0, 0, 0)
  version := ⟨[], List.not_mem_nil⟩

/-- The same status as a reply, with the octet that announces a port, and the port. -/
def A2s.barePort : List UInt8 := A2s.header ++ 0x49 :: A2s.bareHead.octets ++ [0x80, 0x87, 0x69]

/-- Of the parts of that reply, one is accepted. -/
theorem receive_cut_short_port :
    (({} : Exchange).receive .a2s {} (some .status) ∅ A2s.barePort).2.outcome = .done true ∧
    ∀ cut, cut <+: A2s.barePort → cut ≠ A2s.barePort →
      (({} : Exchange).receive .a2s {} (some .status) ∅ cut).2.outcome
        = if cut = A2s.header ++ 0x49 :: A2s.bareHead.octets then .done true
          else .error .malformedPacket := by
  have hdone : (({} : Exchange).receive .a2s {} (some .status) ∅ A2s.barePort).2.outcome
      = .done true := by decide +kernel
  obtain ⟨hcuts, hone⟩ := receive_cut_short (.inl rfl) hdone ⟨_, _, _, rfl, rfl⟩
  have hannounces : A2s.Announces A2s.barePort (A2s.header ++ 0x49 :: A2s.bareHead.octets) :=
    ⟨A2s.bareHead, 0x80, [0x87, 0x69], rfl, rfl⟩
  refine ⟨hdone, fun cut hcut hne => ?_⟩
  by_cases hbare : cut = A2s.header ++ 0x49 :: A2s.bareHead.octets
  · rw [if_pos hbare]
    exact (hcuts cut hcut hne).1 ⟨rfl, hbare ▸ hannounces⟩
  · rw [if_neg hbare]
    exact (hcuts cut hcut hne).2 fun h => hbare (hone _ _ h.2 hannounces)

end Protocol

end ServerProbe
