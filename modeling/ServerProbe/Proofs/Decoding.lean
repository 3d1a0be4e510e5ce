/-
Replies of Source and GoldSrc servers are read as they were written.

An `Answer` is a reply as a server means it, in one of the five layouts; `Answer.octets` is
how it is sent and `Answer.content` what it says. Reading the octets tells the content
(`read_answer`), and learning the content adds it to what is known, as far as there is room
(`learnAll_content`). Together: a payload that was written as a reply to an open phase answers
this phase and no other, and nothing is known afterwards but what was known and what was
written (`receive_answer`).
-/
import ServerProbe.Proofs.Content
import ServerProbe.Proofs.Layout
import ServerProbe.Proofs.Protocol

set_option autoImplicit false

namespace ServerProbe

open Reply

/-! ## What a reply says, fact by fact -/

namespace Content

/-- The facts that a reply tells one after another. -/
def facts (c : Content) : List Fact :=
  c.name.toList.map .name ++ (c.map.toList.map .map ++ (c.game.toList.map .game
    ++ (c.numPlayers.toList.map .numPlayers ++ (c.maxPlayers.toList.map .maxPlayers
    ++ (Protocol.A2s.ruleFacts c.rules ++ (c.players.map .newcomer
    ++ c.revision.toList.map .revision))))))

/-- A fact that may be left out is told if it is there. -/
theorem says_option {α : Type} {fact : α → Fact} (say : Option α → Content) (hnone : say none = {})
    (hsome : ∀ a, (say (some a)).Says [fact a]) (value : Option α) :
    (say value).Says (value.toList.map fact) := by
  rcases value with _ | a
  · rw [hnone]
    exact .nothing
  · exact hsome a

/-- The facts of a content say it. -/
theorem says_facts (c : Content) : c.Says c.facts := by
  have hname := says_option (fun name => { name }) rfl .name c.name
  have hmap := says_option (fun map => { map }) rfl .map c.map
  have hgame := says_option (fun game => { game }) rfl .game c.game
  have hnum := says_option (fun numPlayers => { numPlayers }) rfl .numPlayers c.numPlayers
  have hmax := says_option (fun maxPlayers => { maxPlayers }) rfl .maxPlayers c.maxPlayers
  have hrules := says_list (fun rules => { rules }) rfl (fun _ _ => rfl)
    (fun rule => .rule rule.name rule.value) c.rules
  have hplayers := says_list (fun players => { players }) rfl (fun _ _ => rfl)
    .newcomer c.players
  have hrevision := says_option (fun revision => { revision }) rfl .revision c.revision
  have hall := hname.append (hmap.append (hgame.append (hnum.append (hmax.append
    (hrules.append (hplayers.append hrevision))))))
  simpa [followedBy, facts, Protocol.A2s.ruleFacts] using hall

end Content

/-- **Learning a content adds it to what is known,** if there is room for it. -/
theorem Exchange.learnAll_content {policy : DuplicatePolicy} {x : Exchange} {c : Content}
    {server : Server} (hrules : x.server.addRules policy c.rules = .ok server)
    (hplayers : x.server.players.length + c.players.length ≤ playerLimit) :
    x.learnAll policy c.facts = (x.taught c server.rules, none) :=
  learnAll_taught c.says_facts hrules hplayers

/-! ## Replies -/

namespace Protocol.A2s

/-- A reply as a server means it. -/
inductive Answer where
  | compact (status : CompactStatus)
  | source (head : SourceHead) (extra : Option Extra)
  | goldSrc (status : GoldSrcStatus)
  | rules (pairs : List (Piece × Piece)) (fits : pairs.length < 0x10000)
  | players (entries : List Entry) (fits : entries.length < 0x100)

namespace Answer

/-- The phase that it answers. -/
def phase : Answer → Phase
  | compact _ => .status
  | source _ _ => .status
  | goldSrc _ => .status
  | rules _ _ => .rules
  | players _ _ => .players

/-- The octet that tells the layout, and what follows it. -/
def body : Answer → List UInt8
  | compact status => 0x49 :: status.octets
  | source head extra => 0x49 :: (head.octets ++ extra.elim [] Extra.octets)
  | goldSrc status => 0x6D :: status.octets
  | rules pairs _ => 0x45 :: (Octets.littleEndian 2 pairs.length ++ ruleOctets pairs)
  | players entries _ => 0x44 :: UInt8.ofNat entries.length :: entries.flatMap Entry.octets

/-- The octets in which it is sent. -/
def octets (a : Answer) : List UInt8 := header ++ a.body

/-- What it says. -/
def content : Answer → Content
  | compact status =>
    { name := status.name.text
      map := status.map.text
      numPlayers := status.numPlayers.toUInt32
      maxPlayers := status.maxPlayers.toUInt32
      rules := status.rules
      revision := sourceRevision }
  | source head extra =>
    { name := head.name.text
      map := head.map.text
      game := head.game.text
      numPlayers := head.numPlayers.toUInt32
      maxPlayers := head.maxPlayers.toUInt32
      rules := head.rules ++ extra.elim [] Extra.rules
      revision := sourceRevision }
  | goldSrc status =>
    { name := status.name.text
      map := status.map.text
      game := status.game.text
      numPlayers := status.numPlayers.toUInt32
      maxPlayers := status.maxPlayers.toUInt32
      rules := status.rules
      revision := goldSrcRevision }
  | rules pairs _ => { rules := pairs.map fun pair => ⟨pair.1.text, pair.2.text⟩ }
  | players entries _ => { players := entries.map Entry.fields }

end Answer

/-- A reader of a phase that is open reads what its body reads. -/
theorem reads_answer {s : Situation} {phase : Phase} {body : Reply Unit} {octets : List UInt8}
    {facts : List Fact} (hopen : phase ∉ s.sealed) (h : Reads body octets [] () facts) :
    Reads (answer s phase body) octets [] (.done (PhaseSet.ofList [phase]) true) facts := by
  unfold answer
  have hdone := h.followed (k := fun _ => pure (Ending.done (PhaseSet.ofList [phase]) true))
    (needs_pure _)
  rw [List.append_nil] at hdone
  exact ((needs_accept hopen).reads _).bind hdone

/-- The Source layout is read whether further fields follow or not. -/
theorem reads_sourceStatus (head : SourceHead) (extra : Option Extra) :
    Reads status (head.octets ++ extra.elim [] Extra.octets) [] ()
      (head.facts ++ ruleFacts (extra.elim [] Extra.rules)) := by
  have hextra : Reads extraFields (extra.elim [] Extra.octets) [] ()
      (ruleFacts (extra.elim [] Extra.rules)) := by
    rcases extra with _ | e
    · exact reads_noFields
    · exact reads_extraFields ((needs_portField e).reads [])
  have hboth := ((needs_statusHead head).reads _).bind (k := fun _ => extraFields) hextra
  intro pos noted
  have hprotocol : (⟨pos, head.octets ++ extra.elim [] Extra.octets ++ []⟩ : Reader).peek?
      ≠ some 0 := fun h => head.known (Option.some.inj h)
  rw [status_eq hprotocol]
  exact hboth pos noted

theorem reads_single {s : Situation} (a : Answer) (hopen : a.phase ∉ s.sealed) :
    Reads (single s) a.body [] (.done (PhaseSet.ofList [a.phase]) true) a.content.facts := by
  unfold single
  cases a with
  | compact status =>
    refine ((needs_uint8 0x49).reads _).bind (reads_answer hopen ?_)
    exact ((needs_compactStatus status).reads []).followed (needs_note _)
  | source head extra =>
    have hfacts : (Answer.source head extra).content.facts = head.facts
        ++ ruleFacts (extra.elim [] Extra.rules) ++ [.revision sourceRevision] := by
      simp [Answer.content, Content.facts, SourceHead.facts]
    rw [hfacts]
    refine ((needs_uint8 0x49).reads _).bind (reads_answer hopen ?_)
    exact (reads_sourceStatus head extra).followed (needs_note _)
  | goldSrc status =>
    refine ((needs_uint8 0x6D).reads _).bind (reads_answer hopen ?_)
    exact ((needs_goldSrcStatus status).reads []).followed (needs_note _)
  | rules pairs fits =>
    have hfacts : (Answer.rules pairs fits).content.facts
        = ruleFacts (pairs.map fun pair => ⟨pair.1.text, pair.2.text⟩) := by
      simp [Answer.content, Content.facts]
    have hcount : (UInt16.ofNat pairs.length).toNat = pairs.length :=
      UInt16.toNat_ofNat_of_lt' fits
    have hpairs := needs_uint16LE (UInt16.ofNat pairs.length)
    rw [hcount] at hpairs
    rw [hfacts]
    refine ((needs_uint8 0x45).reads _).bind (reads_answer hopen ?_)
    refine (hpairs.reads _).bind (k := fun count => rules count.toNat) ?_
    rw [hcount]
    exact (needs_rules pairs).reads []
  | players entries fits =>
    have hfacts : (Answer.players entries fits).content.facts
        = entries.map fun e => .newcomer e.fields := by
      simp [Answer.content, Content.facts]
    have hcount : (UInt8.ofNat entries.length).toNat = entries.length :=
      UInt8.toNat_ofNat_of_lt' fits
    rw [hfacts]
    refine ((needs_uint8 0x44).reads _).bind (reads_answer hopen ?_)
    refine ((needs_uint8 _).reads _).bind (k := fun count => players count.toNat) ?_
    rw [hcount]
    exact (needs_players entries).reads []

/-- **The octets of a reply are read as what it says.** -/
theorem read_answer {s : Situation} (a : Answer) (hopen : a.phase ∉ s.sealed) :
    Protocol.a2s.read s a.octets
      = ⟨a.content.facts, .ok (.done (PhaseSet.ofList [a.phase]) true)⟩ :=
  ((needs_header.reads _).bind (reads_single a hopen)).readAll

theorem Answer.players_lt (a : Answer) : a.content.players.length < 0x100 := by
  cases a with
  | players entries fits =>
    rw [content, List.length_map]
    exact fits
  | _ => exact Nat.zero_lt_succ _

/-- **Replies are received as they were written.** Let a reply in one of the five layouts be
taken in while its phase is open, and let there be room for its rules and players. It answers
its phase and no other, for good. What is known afterwards is what was known, with what the
reply says: its rules are added one after another, and its players get the numbers that follow
the last one given. Texts are what they were before they were written. -/
theorem receive_answer (a : Answer) {params : RequestParams} {x : Exchange}
    {current : Option Phase} {closed : PhaseSet} {server : Server} (hopen : a.phase ∉ closed)
    (hnumber : 0 ≤ x.session.nextPlayer.toInt ∧ x.session.nextPlayer.toInt ≤ 2049)
    (hrules : x.server.addRules params.rulePolicy a.content.rules = .ok server)
    (hplayers : x.server.players.length + a.content.players.length ≤ playerLimit) :
    x.receive .a2s params current closed a.octets
      = (x.taught a.content server.rules,
          { outcome := .done true, answered := PhaseSet.ofList [a.phase] }) ∧
    (∀ i < a.content.players.length,
      (x.session.nextPlayer + Int32.ofNat i).toInt = x.session.nextPlayer.toInt + i) ∧
    ∀ (p : Piece) (text : String), p.octets = Text.Utf8.encode text.toList → p.text = text := by
  refine ⟨?_, ?_, ?_⟩
  · rw [Exchange.receive_eq, read_answer a hopen, Exchange.apply,
      Exchange.learnAll_content hrules hplayers]
    rfl
  · intro i hi
    have hfew := a.players_lt
    rw [Int32.toInt_add, Int32.toInt_ofNat_of_lt (by omega)]
    exact Int.bmod_eq_of_le (by omega) (by omega)
  · exact fun p text => Piece.text_eq

/-- A Source server with a bot, and two of the fields that may follow its status. -/
def dedicatedServer : Answer :=
  .source
    { protocol := 17
      known := by decide
      name := .ofText "Überfall" (by decide)
      map := .ofText "de_dust" (by decide)
      folder := .ofText "cstrike" (by decide)
      game := .ofText "CS" (by decide)
      appId := 240
      numPlayers := 3
      maxPlayers := 12
      bots := 1
      serverType := 0x64
      environment := 0x6C
      visibility := 0
      secure := 1
      ship := (0, 0, 0)
      version := .ofText "1.0" (by decide) }
    (some { port := some 27016, keywords := some (.ofText "alltalk" (by decide)) })

/-- The rules of a server that is known already are overwritten. -/
theorem receive_answer_overwriting :
    let x : Exchange := { server.rules := [⟨"version", "0.9"⟩, ⟨"sv_gravity", "800"⟩] }
    x.receive .a2s { rulePolicy := .overwrite } (some .status) ∅ dedicatedServer.octets
      = ({ server :=
            { name := some "Überfall"
              map := some "de_dust"
              game := some "CS"
              numPlayers := 3
              maxPlayers := 12
              rules := [⟨"version", "1.0"⟩, ⟨"sv_gravity", "800"⟩, ⟨"protocol", "17"⟩,
                ⟨"gamedir", "cstrike"⟩, ⟨"gamename", "CS"⟩, ⟨"appid", "240"⟩, ⟨"bots", "1"⟩,
                ⟨"dedicated", "1"⟩, ⟨"sv_os", "linux"⟩, ⟨"password", "0"⟩, ⟨"secure", "1"⟩,
                ⟨"game_port", "27016"⟩, ⟨"keywords", "alltalk"⟩] }
           session.revision := some 2 },
          { outcome := .done true, answered := PhaseSet.ofList [.status] }) := by
  intro x
  have hreceived : x.receive .a2s { rulePolicy := .overwrite } (some .status) ∅
      dedicatedServer.octets = _ :=
    And.left (receive_answer dedicatedServer (by decide) (by decide) rfl (by decide))
  rw [hreceived]
  decide +kernel

/-- A GoldSrc server that runs no modification. -/
def oldServer : GoldSrcStatus where
  address := .ofText "192.0.2.1:27015" (by decide)
  name := .ofText "Old School" (by decide)
  map := .ofText "crossfire" (by decide)
  folder := .ofText "valve" (by decide)
  game := .ofText "Half-Life" (by decide)
  numPlayers := 3
  maxPlayers := 12
  protocol := 47
  serverType := 0x64
  environment := 0x77
  visibility := 0
  mod := .inr ⟨0, by decide⟩
  secure := 1
  bots := 0

/-- The protocol of a GoldSrc server is told before the directory and the name of the game,
though it is written behind them. -/
theorem rules_not_as_written :
    (({} : Exchange).receive .a2s { rulePolicy := .append } (some .status) ∅
      (Answer.goldSrc oldServer).octets).1.server.rules ≠ oldServer.rulesAsWritten := by
  decide +kernel

end Protocol.A2s

end ServerProbe
