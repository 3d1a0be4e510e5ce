/-
Full status replies of Minecraft servers are read as they were written, and so are the tokens
that these servers hand out.

A full status holds keys and values up to an empty key, and names up to an empty name. Values
may be empty, since only where a key or a name is due an empty text is the end. So the
repetition of the reader goes round once for each pair and once for each name (`rounds_pairs`,
`rounds_names`), and it stops where they were written to stop: what follows makes no
difference. A token is written in decimal and is the next thing that a request for the status
carries.
-/
import ServerProbe.Proofs.Content
import ServerProbe.Proofs.Strictness
import ServerProbe.Protocol

set_option autoImplicit false

namespace ServerProbe.Protocol.GameSpy4

open Reply

/-! ## What is written -/

/-- The keys of the well-known facts. What stands under any other key is a rule. -/
def vocabulary : Vocabulary where
  name := "hostname"
  map := "map"
  game := "game_id"
  numPlayers := some "numplayers"
  maxPlayers := "maxplayers"
  isRule := fun key => key ∉ ["hostname", "map", "game_id", "numplayers", "maxplayers"]

/-- The octets of a text and the zero octet that ends it. -/
def ended (text : String) : List UInt8 := Text.Utf8.encode text.toList ++ [0]

/-- The octets of a key and of its value. -/
def pairOctets (pair : Rule) : List UInt8 := ended pair.name ++ ended pair.value

/-- The octets that every reply starts with: its type, and the id of the requests. -/
def replyHead (kind : UInt8) (id : UInt32) : List UInt8 := kind :: Octets.bigEndian 4 id.toNat

/-- The octets of a full status. -/
def statusOctets (id : UInt32) (pairs : List Rule) (names : List String) : List UInt8 :=
  replyHead statusType id ++ (padding ++ ((pairs.flatMap pairOctets ++ ended "")
    ++ (playerMarker ++ (names.flatMap ended ++ ended ""))))

/-- The octets of a reply with a token. -/
def tokenOctets (id : UInt32) (token : Int32) : List UInt8 :=
  replyHead handshakeType id ++ ended (String.ofList (Text.intDecimal token.toInt))

/-- What a full status says. -/
def statusContent (pairs : List Rule) (names : List String) : Content :=
  { vocabulary.content pairs with players := names.map fun name => [.name name] }

/-- Whether keys and values can be sent. -/
abbrev Sendable (pairs : List Rule) : Prop :=
  ∀ pair ∈ pairs, pair.Sendable ['\x00'] ["numplayers", "maxplayers"]

/-- Whether names can be sent. -/
abbrev Callable (names : List String) : Prop := ∀ name ∈ names, name ≠ "" ∧ '\x00' ∉ name.toList

/-! ## Texts and heads -/

/-- A text that can be ended by a zero octet stands there as a piece. -/
theorem exists_piece {text : String} (h : '\x00' ∉ text.toList) :
    ∃ p : Piece, p.ended = ended text ∧ p.text = text :=
  ⟨.ofText text h, rfl, Piece.text_eq rfl⟩

theorem needs_ended {text : String} (h : '\x00' ∉ text.toList) :
    Needs (Reply.read Reader.cstring) (ended text) text [] := by
  obtain ⟨p, hended, htext⟩ := exists_piece h
  have hneeds := needs_cstring p
  rwa [hended, htext] at hneeds

/-- A reply to requests with the right id is read on behind its head. -/
theorem reads_head {s : Situation} {kind : UInt8} {octets rest : List UInt8} {ending : Ending}
    {facts : List Fact}
    (h : Reads (if kind = handshakeType then handshake s
      else if kind = statusType then do
        accept s .status
        fullStatus
        pure (.done (PhaseSet.ofList [.status, .rules, .players]) true)
      else fail (.unknownType kind)) octets rest ending facts) :
    Reads (reply s) (replyHead kind s.session.sessionId ++ octets) rest ending facts := by
  have hid : Needs (Reply.read Reader.int32BE) (Octets.bigEndian 4 s.session.sessionId.toNat)
      s.session.sessionId.toInt32 [] := by
    simpa using needs_int32BE s.session.sessionId.toInt32
  unfold reply
  refine ((needs_uint8 kind).reads _).bind ((hid.reads _).bind ?_)
  rw [if_neg (by simp)]
  exact h

/-! ## Pairs -/

theorem needs_number (key : String) {value : String} (h : Text.IsNumeral value.toList) :
    Needs (number key value) [] (Text.numeralValue value.toList) [] := by
  refine needs_require ?_
  rw [Text.trim_of_no_blank h.not_blank, h.uint32?_eq]

/-- A key tells one fact, which says what stands under it. -/
theorem exists_fact {pair : Rule} (h : pair.Sendable ['\x00'] ["numplayers", "maxplayers"]) :
    ∃ fact, Needs (notePair pair.name pair.value) [] () [fact] ∧
      (vocabulary.content [pair]).Says [fact] := by
  unfold notePair
  simp only [Vocabulary.content, vocabulary, lastValue?_singleton]
  split
  · next hname => exact ⟨_, needs_note _, by simpa [hname, lastValue?_singleton] using .name _⟩
  · next hname => exact ⟨_, needs_note _, by simpa [hname, lastValue?_singleton] using .map _⟩
  · next hname => exact ⟨_, needs_note _, by simpa [hname, lastValue?_singleton] using .game _⟩
  · next hname =>
    have hnumber := needs_number pair.name (h.numeral (by simp [hname]))
    exact ⟨_, hnumber.bind (needs_note _),
      by simpa [hname, lastValue?_singleton] using .numPlayers _⟩
  · next hname =>
    have hnumber := needs_number pair.name (h.numeral (by simp [hname]))
    exact ⟨_, hnumber.bind (needs_note _),
      by simpa [hname, lastValue?_singleton] using .maxPlayers _⟩
  · next hhost hmap hgame hnum hmax =>
    refine ⟨_, needs_note _, ?_⟩
    have hrule : pair.name ∉ ["hostname", "map", "game_id", "numplayers", "maxplayers"] := by
      simpa using ⟨hhost, hmap, hgame, hnum, hmax⟩
    rw [List.filter_cons_of_pos (by simpa using hrule), List.filter_nil]
    simpa [if_neg hhost, if_neg hmap, if_neg hgame, if_neg hnum, if_neg hmax,
      lastValue?_singleton] using .rule pair.name pair.value

/-- **Pairs are noted up to the empty key,** one in each round. -/
theorem rounds_pairs {pairs : List Rule} (h : Sendable pairs) :
    ∃ facts, Rounds notePairs (pairs.flatMap pairOctets ++ ended "") facts ∧
      (vocabulary.content pairs).Says facts := by
  rw [notePairs_eq]
  induction pairs with
  | nil =>
    obtain ⟨p, hended, htext⟩ := exists_piece (show '\x00' ∉ "".toList by decide)
    rw [List.flatMap_nil, List.nil_append, ← hended, Vocabulary.content_nil]
    exact ⟨[], rounds_empty htext, .nothing⟩
  | cons pair rest ih =>
    have hpair := h pair List.mem_cons_self
    have hfree := hpair.free '\x00' List.mem_cons_self
    obtain ⟨told, hrounds, hsays⟩ := ih fun other hother => h other (List.mem_cons_of_mem _ hother)
    obtain ⟨fact, hnotes, hsaysOne⟩ := exists_fact hpair
    obtain ⟨p, hended, htext⟩ := exists_piece hfree.1
    have hbody : Needs (Reply.read Reader.cstring >>= notePair p.text) (ended pair.value) ()
        [fact] := by
      rw [htext, ← List.append_nil (ended _)]
      exact (needs_ended hfree.2).bind hnotes
    have hoctets : (pair :: rest).flatMap pairOctets ++ ended ""
        = p.ended ++ (ended pair.value ++ (rest.flatMap pairOctets ++ ended "")) := by
      rw [List.flatMap_cons, pairOctets, hended, List.append_assoc, List.append_assoc]
    rw [hoctets, Vocabulary.content_cons]
    exact ⟨_, rounds_more (htext ▸ hpair.named) hbody hrounds, hsaysOne.append hsays⟩

/-! ## Names -/

/-- **Players are noted up to the empty name,** one in each round. -/
theorem rounds_names {names : List String} (h : Callable names) :
    Rounds noteNames (names.flatMap ended ++ ended "")
      (names.map fun name => .newcomer [.name name]) := by
  rw [noteNames_eq]
  induction names with
  | nil =>
    obtain ⟨p, hended, htext⟩ := exists_piece (show '\x00' ∉ "".toList by decide)
    rw [List.flatMap_nil, List.nil_append, ← hended]
    exact rounds_empty htext
  | cons name rest ih =>
    obtain ⟨hnamed, hfree⟩ := h name List.mem_cons_self
    obtain ⟨p, hended, htext⟩ := exists_piece hfree
    have hrest := ih fun other hother => h other (List.mem_cons_of_mem _ hother)
    rw [List.flatMap_cons, List.append_assoc, ← hended, List.map_cons]
    have hnote : Needs (note (.newcomer [.name p.text])) [] () [.newcomer [.name name]] :=
      htext ▸ needs_note _
    exact rounds_more (htext ▸ hnamed) hnote hrest

theorem says_names (names : List String) :
    ({ players := names.map fun name => [.name name] } : Content).Says
      (names.map fun name => .newcomer [.name name]) :=
  Content.says_list (fun names => { players := names.map fun name => [.name name] }) rfl
    (fun _ _ => rfl) (fun name => .newcomer [.name name]) names

/-! ## Replies -/

/-- **The octets of a full status are read as what it says,** whatever follows them. -/
theorem conveys_status {s : Situation} {pairs : List Rule} {names : List String}
    (hpairs : Sendable pairs) (hnames : Callable names) (hopen : .status ∉ s.sealed)
    (trailing : List UInt8) :
    Conveys (reply s) (statusOctets s.session.sessionId pairs names) trailing
      (.done (PhaseSet.ofList [.status, .rules, .players]) true) (statusContent pairs names) := by
  obtain ⟨facts, hrounds, hsays⟩ := rounds_pairs hpairs
  have hcontent : statusContent pairs names = (vocabulary.content pairs).followedBy
      { players := names.map fun name => [.name name] } := by
    simp [statusContent, Content.followedBy, Vocabulary.content]
  rw [hcontent]
  refine ⟨_, reads_head ?_, hsays.append (says_names names)⟩
  rw [if_neg (by decide), if_pos rfl]
  have hfull : Reads fullStatus (padding ++ ((pairs.flatMap pairOctets ++ ended "")
      ++ (playerMarker ++ (names.flatMap ended ++ ended "")))) trailing ()
      (facts ++ names.map fun name => .newcomer [.name name]) := by
    unfold fullStatus
    refine ((needs_expect padding).reads _).bind ((hrounds.reads_forAll _).bind ?_)
    exact ((needs_expect playerMarker).reads _).bind ((rounds_names hnames).reads_forAll _)
  have hdone := hfull.followed (k := fun _ =>
    pure (Ending.done (PhaseSet.ofList [.status, .rules, .players]) true)) (needs_pure _)
  rw [List.append_nil] at hdone
  exact ((needs_accept hopen).reads _).bind hdone

/-- **A token is read as it was written,** whatever follows it. -/
theorem reads_token {s : Situation} (hcurrent : s.current = some .challenge)
    (hopen : .challenge ∉ s.sealed) (token : Int32) (trailing : List UInt8) :
    Reads (reply s) (tokenOctets s.session.sessionId token) trailing
      (.done (PhaseSet.ofList [.challenge]) true) [.token token] := by
  have hfree : '\x00' ∉ (String.ofList (Text.intDecimal token.toInt)).toList := by
    rw [String.toList_ofList]
    intro hzero
    exact absurd (Text.mem_intDecimal hzero) (by decide)
  have hvalue : Text.int32? (Text.trim (String.ofList (Text.intDecimal token.toInt)).toList)
      = some token := by
    rw [String.toList_ofList, Text.trim_of_no_blank fun _ => Text.not_blank_intDecimal,
      Text.int32?_intDecimal]
  have hhandshake : Needs (handshake s) (ended (String.ofList (Text.intDecimal token.toInt)) ++ [])
      (.done (PhaseSet.ofList [.challenge]) true) ([] ++ [.token token]) := by
    unfold handshake
    refine (needs_ended hfree).bind ((needs_require hvalue).bind ?_)
    rw [if_pos hcurrent]
    exact (needs_accept hopen).bind (needs_noted (needs_pure _))
  rw [List.append_nil] at hhandshake
  refine reads_head ?_
  rw [if_pos rfl]
  exact hhandshake.reads trailing

/-- A token is stored, and nothing else changes. -/
theorem receive_token {x : Exchange} {params : RequestParams} {closed : PhaseSet}
    (hopen : .challenge ∉ closed) (token : Int32) (trailing : List UInt8) :
    x.receive .gs4 params (some .challenge) closed
        (tokenOctets x.session.sessionId token ++ trailing)
      = ({ x with session.challenge := some token },
          { outcome := .done true, answered := PhaseSet.ofList [.challenge] }) := by
  have hreads := reads_token (s := ⟨some .challenge, closed, x.session⟩) rfl hopen token trailing
  change Reads (Protocol.gs4.reply _) _ _ _ _ at hreads
  rw [Exchange.receive_eq, Protocol.read, readAll_eq, Reader.ofPayload, hreads 0 []]
  rfl

/-- **Full status replies and tokens are received as they were written,** whatever follows
them. Let a full status with the id of the requests come while the status is open, and let
there be room for its rules and players. It answers the status, the rules and the players, for
good. What is known afterwards is what was known, with what the reply says: each of the five
well-known facts is what stands last under its key, if anything does, what stands under other
keys is added to the rules in order, and the players get the numbers that follow the last one
given. A token that comes while it is asked for is stored, and the next request for the status
carries it. -/
theorem receive_fullStatus (x : Exchange) (params : RequestParams) (closed : PhaseSet)
    (trailing : List UInt8) :
    (∀ (pairs : List Rule) (names : List String) (current : Option Phase),
      Sendable pairs → Callable names → .status ∉ closed →
      0 ≤ x.session.nextPlayer.toInt ∧ x.session.nextPlayer.toInt ≤ 2049 →
      x.server.HasRoomFor params.rulePolicy
        (pairs.filter fun pair => vocabulary.isRule pair.name) →
      x.server.players.length + names.length ≤ playerLimit →
      ∃ server, x.server.addRules params.rulePolicy
          (pairs.filter fun pair => vocabulary.isRule pair.name) = .ok server ∧
        x.receive .gs4 params current closed
            (statusOctets x.session.sessionId pairs names ++ trailing)
          = (x.taught (statusContent pairs names) server.rules,
              { outcome := .done true, answered := PhaseSet.ofList [.status, .rules, .players] }) ∧
        ∀ i < names.length,
          (x.session.nextPlayer + Int32.ofNat i).toInt = x.session.nextPlayer.toInt + i) ∧
    ∀ token : Int32, .challenge ∉ closed →
      x.receive .gs4 params (some .challenge) closed
          (tokenOctets x.session.sessionId token ++ trailing)
        = ({ x with session.challenge := some token },
            { outcome := .done true, answered := PhaseSet.ofList [.challenge] }) ∧
      Protocol.gs4.request .status { x.session with challenge := some token }
        = .ok (magic ++ statusType :: Octets.bigEndian 4 x.session.sessionId.toNat
            ++ Octets.bigEndian 4 token.toUInt32.toNat ++ [0, 0, 0, 0]) := by
  refine ⟨?_, fun token hopen => ⟨receive_token hopen token trailing, rfl⟩⟩
  intro pairs names current hpairs hnames hopen hnumber hrules hplayers
  obtain ⟨server, hserver⟩ := hrules.addRules
  have hplayers' : x.server.players.length + (statusContent pairs names).players.length
      ≤ playerLimit := by
    rw [statusContent, List.length_map]
    exact hplayers
  have hconveys := conveys_status (s := ⟨current, closed, x.session⟩) hpairs hnames hopen trailing
  exact ⟨server, hserver, Exchange.receive_of_conveys (p := .gs4) hconveys hserver hplayers',
    fun i hi => Exchange.toInt_nextPlayer_add hnumber (by omega) hi⟩

/-- Keys and values with an empty value, and with a version that is told twice. -/
def blockPairs : List Rule :=
  [⟨"hostname", "Blöcke"⟩, ⟨"plugins", ""⟩, ⟨"version", "1.19"⟩, ⟨"numplayers", "2"⟩,
    ⟨"version", "1.20.1"⟩, ⟨"maxplayers", "020"⟩, ⟨"hostname", "Blocks"⟩]

theorem sendable_blockPairs : Sendable blockPairs := by
  intro pair hpair
  refine ⟨?_, ?_, fun hcounts => ?_⟩
  · revert pair
    decide
  · intro c hc
    obtain rfl := List.mem_singleton.mp hc
    revert pair
    decide
  · have hvalue : pair.value = "2" ∨ pair.value = "020" := by
      revert pair
      decide
    rcases hvalue with hvalue | hvalue
    · rw [hvalue]
      exact ⟨by decide, List.all_eq_true.mp (by decide), by decide⟩
    · rw [hvalue]
      exact ⟨by decide, List.all_eq_true.mp (by decide), by decide⟩

/-- Of rules that are told twice the first is kept, and what follows a reply is passed over. A
token below zero is sent as it is stored. -/
theorem receive_fullStatus_keeping :
    let x : Exchange := { session := { sessionId := 0x01020304, nextPlayer := 7 } }
    x.receive .gs4 {} (some .status) ∅
        (statusOctets 0x01020304 blockPairs ["Steve", "Alex"] ++ [0x41, 0x00])
      = ({ server :=
            { name := some "Blocks"
              numPlayers := 2
              maxPlayers := 20
              rules := [⟨"plugins", ""⟩, ⟨"version", "1.19"⟩]
              players := [{ number := 7, name := "Steve" }, { number := 8, name := "Alex" }] }
           session := { sessionId := 0x01020304, nextPlayer := 9 } },
          { outcome := .done true
            answered := PhaseSet.ofList [.status, .rules, .players] }) ∧
    Protocol.gs4.request .status { x.session with challenge := some (-2) }
      = .ok ([0xFE, 0xFD, 0x00, 0x01, 0x02, 0x03, 0x04, 0xFF, 0xFF, 0xFF, 0xFE, 0, 0, 0, 0]) := by
  intro x
  obtain ⟨hstatus, htoken⟩ := receive_fullStatus x {} ∅ [0x41, 0x00]
  obtain ⟨server, hserver, hreceived, -⟩ := hstatus blockPairs ["Steve", "Alex"] (some .status)
    sendable_blockPairs (by decide) (by decide) (by decide) (by decide) (by decide)
  have hrequest := And.right (htoken (-2) (by decide))
  have hadded : x.server.addRules .keepFirst
      (blockPairs.filter fun pair => vocabulary.isRule pair.name) = .ok _ := rfl
  refine ⟨?_, hrequest.trans (by decide +kernel)⟩
  rw [hreceived, Except.ok.inj (hserver.symm.trans hadded)]
  decide +kernel

end ServerProbe.Protocol.GameSpy4
