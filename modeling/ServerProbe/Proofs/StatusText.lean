/-
Status replies of Quake 3 servers are read as they were written.

A reply is a text of lines. Its second line holds keys and values, divided by backslashes, and
every further line a player. Texts between separators may be empty: a key takes the piece
behind it as its value, whatever that is, and only where a key is due an empty piece is passed
over. A name may hold quotes, since it reaches to the last quote of its line, and there is none
behind its own. So keys, values, scores, pings and names are found where they were put
(`variablesOf_variableLine`, `player?_text`), and by induction over both lists a reply conveys
what was written (`conveys_reply`).
-/
import ServerProbe.Proofs.Content
import ServerProbe.Protocol

set_option autoImplicit false

namespace ServerProbe.Protocol.Quake3

open Reply

/-! ## What is written -/

/-- The keys of the well-known facts. What stands under them is a rule as well, and how many
players there are is not told but counted. -/
def vocabulary : Vocabulary where
  name := "sv_hostname"
  map := "mapname"
  game := "gamename"
  numPlayers := none
  maxPlayers := "sv_maxclients"
  isRule := fun _ => true

/-- What stands between the backslashes on the line of variables. -/
def variablePieces (pairs : List Rule) : List (List Char) :=
  pairs.flatMap fun pair => [pair.name.toList, pair.value.toList]

/-- The line of variables: a backslash before each key and before each value. -/
def variableLine (pairs : List Rule) : List Char := (variablePieces pairs).flatMap ('\\' :: ·)

/-- A player as a server means it. -/
structure Fighter where
  score : Int32
  ping : UInt32
  name : String
  /-- A name ends with its line. -/
  oneLine : '\n' ∉ name.toList

namespace Fighter

/-- The line of a player. -/
def text (p : Fighter) : List Char :=
  Text.intDecimal p.score.toInt ++ ' ' :: (Text.decimal p.ping.toNat
    ++ ' ' :: '"' :: (p.name.toList ++ ['"']))

/-- What is told about a player. -/
def fields (p : Fighter) : List PlayerField := [.name p.name, .score p.score, .ping p.ping]

end Fighter

/-- The octets of a status reply. -/
def statusOctets (pairs : List Rule) (fighters : List Fighter) : List UInt8 :=
  [0xFF, 0xFF, 0xFF, 0xFF] ++ Text.Utf8.encode ("statusResponse\n".toList
    ++ (variableLine pairs ++ '\n' :: fighters.flatMap fun p => p.text ++ ['\n']))

/-- What a status reply says. -/
def statusContent (pairs : List Rule) (fighters : List Fighter) : Content :=
  { vocabulary.content pairs with
    numPlayers := some (UInt32.ofNat fighters.length)
    players := fighters.map Fighter.fields }

/-! ## The line of variables -/

section Variables

variable {pairs : List Rule}

/-- Whether the keys and values of a list can be sent. -/
abbrev Sendable (pairs : List Rule) : Prop :=
  ∀ pair ∈ pairs, pair.Sendable ['\\', '\n'] ["sv_maxclients"]

theorem free_of_mem_variablePieces (h : Sendable pairs) {piece : List Char}
    (hpiece : piece ∈ variablePieces pairs) : '\\' ∉ piece ∧ '\n' ∉ piece := by
  obtain ⟨pair, hpair, hmem⟩ := List.mem_flatMap.mp hpiece
  have hslash := (h pair hpair).free '\\' (by simp)
  have hline := (h pair hpair).free '\n' (by simp)
  rcases List.mem_pair.mp hmem with rfl | rfl
  · exact ⟨hslash.1, hline.1⟩
  · exact ⟨hslash.2, hline.2⟩

theorem newline_not_mem_variableLine (h : Sendable pairs) : '\n' ∉ variableLine pairs := by
  intro hmem
  obtain ⟨piece, hpiece, hmem⟩ := List.mem_flatMap.mp hmem
  rcases List.mem_cons.mp hmem with heq | hmem
  · cases heq
  · exact (free_of_mem_variablePieces h hpiece).2 hmem

/-- The keys and values are found between the backslashes. Without any, there is one empty
piece. -/
theorem variablesOf_variableLine (h : Sendable pairs) :
    variablesOf (variableLine pairs) = if pairs = [] then [[]] else variablePieces pairs := by
  have hfree : ∀ piece ∈ variablePieces pairs, '\\' ∉ piece :=
    fun piece hpiece => (free_of_mem_variablePieces h hpiece).1
  rcases pairs with _ | ⟨pair, rest⟩
  · rfl
  · rw [if_neg (List.cons_ne_nil _ _)]
    exact Text.splitOn_led (hfree _ List.mem_cons_self)
      fun piece hpiece => hfree piece (List.mem_cons_of_mem _ hpiece)

/-- A well-known key tells its fact. -/
theorem conveys_noteKnown {pair : Rule} (h : pair.Sendable ['\\', '\n'] ["sv_maxclients"])
    (rest : List UInt8) : Conveys (noteKnown pair.name.toList pair.value.toList) [] rest ()
      { vocabulary.content [pair] with rules := [] } := by
  unfold noteKnown
  rw [String.ofList_toList, String.ofList_toList]
  simp only [Vocabulary.content, vocabulary, lastValue?_singleton]
  split
  · next hname => simpa [hname] using conveys_note (.name pair.value) rest
  · next hname => simpa [hname] using conveys_note (.map pair.value) rest
  · next hname => simpa [hname] using conveys_note (.game pair.value) rest
  · next hname =>
    have hvalue := h.numeral (by simp [hname])
    rw [Text.trim_of_no_blank hvalue.not_blank]
    refine .require_bind hvalue.uint32?_eq ?_
    simpa [hname] using conveys_note (.maxPlayers (Text.numeralValue pair.value.toList)) rest
  · next hname hmap hgame hmax =>
    simpa [if_neg hname, if_neg hmap, if_neg hgame, if_neg hmax] using conveys_pure () rest

/-- Keys and values are noted as they come. -/
theorem conveys_noteVariables (h : Sendable pairs) (rest : List UInt8) :
    Conveys (noteVariables (variablePieces pairs)) [] rest () (vocabulary.content pairs) := by
  induction pairs with
  | nil =>
    rw [Vocabulary.content_nil]
    exact conveys_pure () rest
  | cons pair others ih =>
    have hpair := h pair List.mem_cons_self
    have hkey : pair.name.toList.isEmpty = false := by
      simpa using hpair.named
    have hothers := ih fun other hother => h other (List.mem_cons_of_mem _ hother)
    have hcontent : vocabulary.content (pair :: others)
        = { vocabulary.content [pair] with rules := [] }.followedBy
          (({ rules := [pair] } : Content).followedBy (vocabulary.content others)) := by
      rw [Vocabulary.content_cons]
      simp [Content.followedBy, Vocabulary.content, vocabulary]
    rw [hcontent]
    unfold variablePieces noteVariables
    rw [List.flatMap_cons]
    show Conveys (if pair.name.toList.isEmpty then _ else _) _ _ _ _
    rw [hkey, if_neg Bool.false_ne_true, String.ofList_toList, String.ofList_toList]
    refine (conveys_noteKnown hpair _).note_bind ?_
    exact (conveys_note (.rule pair.name pair.value) _).note_bind hothers

/-- The line of variables says what its keys and values say. -/
theorem conveys_variableLine (h : Sendable pairs) (rest : List UInt8) :
    Conveys (noteVariables (variablesOf (variableLine pairs))) [] rest ()
      (vocabulary.content pairs) := by
  rw [variablesOf_variableLine h]
  split
  · next hnone =>
    rw [hnone, Vocabulary.content_nil]
    exact conveys_pure () rest
  · exact conveys_noteVariables h rest

end Variables

/-! ## The lines of players -/

namespace Fighter

/-- The numbers on the line of a player. -/
def numbers (p : Fighter) : List Char :=
  Text.intDecimal p.score.toInt ++ ' ' :: (Text.decimal p.ping.toNat ++ [' '])

theorem text_eq (p : Fighter) : p.text = p.numbers ++ '"' :: (p.name.toList ++ ['"']) := by
  simp [text, numbers]

/-- The numbers are written in digits, minus signs and spaces. -/
theorem mem_numbers {p : Fighter} {c : Char} (h : c ∈ p.numbers) :
    c = '-' ∨ c = ' ' ∨ c.isDigit = true := by
  rcases List.mem_append.mp h with h | h
  · exact (Text.mem_intDecimal h).imp_right .inr
  rcases List.mem_cons.mp h with rfl | h
  · exact .inr (.inl rfl)
  rcases List.mem_append.mp h with h | h
  · exact .inr (.inr (Text.isDigit_of_mem_decimal h))
  · exact .inr (.inl (List.mem_singleton.mp h))

theorem words_numbers (p : Fighter) :
    Text.words p.numbers = [Text.intDecimal p.score.toInt, Text.decimal p.ping.toNat] := by
  rw [numbers, Text.words_append_blank (Text.intDecimal_ne_nil _)
      (fun c hc => Text.not_blank_intDecimal hc) (by decide),
    Text.words_append_blank (Text.decimal_ne_nil _)
      (fun c hc => Text.isBlank_of_isDigit (Text.isDigit_of_mem_decimal hc)) (by decide)]
  rfl

theorem newline_not_mem_text (p : Fighter) : '\n' ∉ p.text := by
  intro h
  rw [text_eq] at h
  rcases List.mem_append.mp h with h | h
  · exact absurd (mem_numbers h) (by decide)
  · have hname : '\n' ∈ p.name.toList := by simpa using h
    exact p.oneLine hname

end Fighter

/-- **The line of a player is read as it was written.** -/
theorem player?_text (p : Fighter) : player? p.text = some (p.score, p.ping, p.name.toList) := by
  have hquote : '"' ∉ p.numbers := fun h => absurd (Fighter.mem_numbers h) (by decide)
  have hfirst : Text.cutFirst? '"' p.text = some (p.numbers, p.name.toList ++ ['"']) := by
    rw [p.text_eq, Text.cutFirst?_append hquote]
  have hlast : Text.cutLast? '"' (p.name.toList ++ ['"']) = some (p.name.toList, []) :=
    Text.cutLast?_append List.not_mem_nil
  unfold player?
  rw [hfirst, Option.bind_eq_bind, Option.bind_some]
  dsimp only
  rw [hlast, Option.bind_eq_bind, Option.bind_some]
  dsimp only
  rw [p.words_numbers]
  dsimp only
  rw [Text.int32?_intDecimal, Text.uint32?_decimal]
  rfl

/-- Players are noted as they come. -/
theorem conveys_notePlayers (fighters : List Fighter) (rest : List UInt8) :
    Conveys (notePlayers (fighters.map Fighter.text)) [] rest ()
      { players := fighters.map Fighter.fields } := by
  induction fighters with
  | nil => exact conveys_pure () rest
  | cons p others ih =>
    have hcontent : ({ players := (p :: others).map Fighter.fields } : Content)
        = ({ players := [p.fields] } : Content).followedBy
          { players := others.map Fighter.fields } := rfl
    rw [hcontent]
    have hone : Conveys (notePlayer p.text) [] rest () { players := [p.fields] } := by
      refine .require_bind (player?_text p) ?_
      dsimp only
      rw [String.ofList_toList]
      exact conveys_note (.newcomer p.fields) rest
    exact hone.note_bind ih

/-! ## Replies -/

/-- The lines of a reply after the first. -/
def linesOf (pairs : List Rule) (fighters : List Fighter) : List (List Char) :=
  variableLine pairs :: (fighters.map Fighter.text ++ [[]])

theorem splitOn_body {pairs : List Rule} (h : Sendable pairs) (fighters : List Fighter) :
    ('\n' :: (variableLine pairs
        ++ '\n' :: fighters.flatMap fun p => p.text ++ ['\n'])).splitOn '\n'
      = [] :: linesOf pairs fighters := by
  have hlines : ('\n' :: (variableLine pairs ++ '\n' :: fighters.flatMap fun p => p.text ++ ['\n']))
      = ([] :: variableLine pairs :: fighters.map Fighter.text).flatMap (· ++ ['\n']) := by
    simp [List.flatMap_map]
  rw [hlines, Text.splitOn_closed]
  · rfl
  · intro line hline
    rcases List.mem_cons.mp hline with rfl | hline
    · exact List.not_mem_nil
    rcases List.mem_cons.mp hline with rfl | hline
    · exact newline_not_mem_variableLine h
    · obtain ⟨p, -, rfl⟩ := List.mem_map.mp hline
      exact p.newline_not_mem_text

/-- What is left after the last line is blank, and no line of a player is. -/
theorem filter_playerLines (fighters : List Fighter) :
    (fighters.map Fighter.text ++ [[]]).filter (fun line => !(Text.trim line).isEmpty)
      = fighters.map Fighter.text := by
  have hkept : ∀ line ∈ fighters.map Fighter.text, (!(Text.trim line).isEmpty) = true := by
    intro line hline
    obtain ⟨p, -, rfl⟩ := List.mem_map.mp hline
    have hquote : '"' ∈ p.text := by simp [Fighter.text_eq]
    simpa using Text.trim_ne_nil hquote (by decide)
  rw [List.filter_append, List.filter_eq_self.mpr hkept]
  simp

theorem conveys_noteLines {pairs : List Rule} (h : Sendable pairs) (fighters : List Fighter)
    (rest : List UInt8) :
    Conveys (noteLines (linesOf pairs fighters)) [] rest () (statusContent pairs fighters) := by
  have hcontent : statusContent pairs fighters = (vocabulary.content pairs).followedBy
      (({ players := fighters.map Fighter.fields } : Content).followedBy
        { numPlayers := some (UInt32.ofNat fighters.length) }) := by
    simp [statusContent, Content.followedBy, Vocabulary.content, vocabulary]
  rw [hcontent]
  unfold noteLines linesOf
  dsimp only
  rw [filter_playerLines, List.length_map]
  refine (conveys_variableLine h _).note_bind ?_
  exact (conveys_notePlayers fighters _).note_bind (conveys_note (.numPlayers _) _)

theorem reads_expectResponse (rest : List UInt8) :
    Reads expectResponse responseWord rest () [] := by
  intro pos noted
  unfold expectResponse Reader.expect
  dsimp only
  rw [bytes_append]
  dsimp only
  rw [if_pos rfl]
  rfl

theorem reads_takeRest (octets : List UInt8) : Reads takeRest octets [] octets [] := by
  intro pos noted
  rw [List.append_nil]
  rfl

/-- A reply whose lines are as they should be conveys what they say. -/
theorem conveys_body {s : Situation} {body : List UInt8} {pairs : List Rule}
    {fighters : List Fighter} (h : Sendable pairs) (hopen : .status ∉ s.sealed)
    (hbody : (Text.Utf8.decode body).splitOn '\n' = [] :: linesOf pairs fighters) :
    Conveys (reply s) (header ++ (responseWord ++ body)) []
      (.done (PhaseSet.ofList [.status, .rules, .players]) true)
      (statusContent pairs fighters) := by
  have hlines : Conveys (do
      noteLines (((Text.Utf8.decode body).splitOn '\n').drop 1)
      pure (Ending.done (PhaseSet.ofList [.status, .rules, .players]) true)) [] []
      (.done (PhaseSet.ofList [.status, .rules, .players]) true)
      (statusContent pairs fighters) := by
    rw [hbody, List.drop_one, List.tail_cons, ← Content.followedBy_empty (statusContent _ _)]
    exact (conveys_noteLines h fighters _).note_bind (conveys_pure _ _)
  have htaken : Conveys (do
      accept s .status
      let body ← takeRest
      noteLines (((Text.Utf8.decode body).splitOn '\n').drop 1)
      pure (Ending.done (PhaseSet.ofList [.status, .rules, .players]) true)) (body ++ []) []
      (.done (PhaseSet.ofList [.status, .rules, .players]) true)
      (statusContent pairs fighters) :=
    ((needs_accept hopen).reads _).conveys_bind ((reads_takeRest body).conveys_bind hlines)
  rw [List.append_nil] at htaken
  unfold reply
  exact ((needs_expect header).reads _).conveys_bind
    ((reads_expectResponse _).conveys_bind htaken)

/-- **The octets of a reply are read as what it says.** -/
theorem conveys_reply {s : Situation} {pairs : List Rule} (h : Sendable pairs)
    (hopen : .status ∉ s.sealed) (fighters : List Fighter) :
    Conveys (reply s) (statusOctets pairs fighters) []
      (.done (PhaseSet.ofList [.status, .rules, .players]) true)
      (statusContent pairs fighters) := by
  have hoctets : statusOctets pairs fighters = header ++ (responseWord ++ Text.Utf8.encode
      ('\n' :: (variableLine pairs ++ '\n' :: fighters.flatMap fun p => p.text ++ ['\n']))) := by
    have hword : "statusResponse\n".toList = "statusResponse".toList ++ ['\n'] := by decide
    rw [statusOctets, hword, List.append_assoc, Text.Utf8.encode_append]
    rfl
  rw [hoctets]
  refine conveys_body h hopen ?_
  rw [Text.Utf8.decode_encode, splitOn_body h]

/-- **Status replies are received as they were written.** Let keys and values and a line for
every player be sent, while the status is open, and let there be room for the rules and the
players. The reply answers the status, the rules and the players, for good. What is known
afterwards is what was known, with what the reply says: every key and value is added as a
rule, name, map, game and player limit are the values that stand last under their keys, if
there are any, and the players have the scores, pings and names that were written and the
numbers that follow the last one given. The number of players is how many there are. -/
theorem receive_statusText {pairs : List Rule} (hpairs : Sendable pairs) (fighters : List Fighter)
    {params : RequestParams} {x : Exchange} {current : Option Phase} {closed : PhaseSet}
    (hopen : .status ∉ closed)
    (hnumber : 0 ≤ x.session.nextPlayer.toInt ∧ x.session.nextPlayer.toInt ≤ 2049)
    (hrules : x.server.HasRoomFor params.rulePolicy pairs)
    (hplayers : x.server.players.length + fighters.length ≤ playerLimit) :
    ∃ server, x.server.addRules params.rulePolicy pairs = .ok server ∧
    x.receive .q3 params current closed (statusOctets pairs fighters)
      = (x.taught (statusContent pairs fighters) server.rules,
          { outcome := .done true, answered := PhaseSet.ofList [.status, .rules, .players] }) ∧
    (∀ i < fighters.length,
      (x.session.nextPlayer + Int32.ofNat i).toInt = x.session.nextPlayer.toInt + i) ∧
    (UInt32.ofNat fighters.length).toNat = fighters.length := by
  obtain ⟨server, hserver⟩ := hrules.addRules
  have hserver' : x.server.addRules params.rulePolicy (statusContent pairs fighters).rules
      = .ok server := by
    simpa [statusContent, Vocabulary.content, vocabulary] using hserver
  have hplayers' : x.server.players.length + (statusContent pairs fighters).players.length
      ≤ playerLimit := by
    rw [statusContent, List.length_map]
    exact hplayers
  have hconveys := conveys_reply (s := ⟨current, closed, x.session⟩) hpairs hopen fighters
  have hreceived : x.receive .q3 params current closed (statusOctets pairs fighters ++ []) = _ :=
    Exchange.receive_of_conveys hconveys hserver' hplayers'
  rw [List.append_nil] at hreceived
  refine ⟨server, hserver, hreceived,
    fun i hi => Exchange.toInt_nextPlayer_add hnumber (by omega) hi, ?_⟩
  have hfew : fighters.length ≤ playerLimit := by omega
  exact UInt32.toNat_ofNat_of_lt' (Nat.lt_of_le_of_lt hfew (by decide))

/-- Keys and values with an empty value, and with a map that is told twice. -/
def busyPairs : List Rule :=
  [⟨"mapname", "q3dm6"⟩, ⟨"sv_maxclients", "016"⟩, ⟨"g_motd", ""⟩, ⟨"mapname", "q3dm17"⟩]

theorem sendable_busyPairs : Sendable busyPairs := by
  intro pair hpair
  refine ⟨?_, ?_, fun hcounts => ?_⟩
  · revert pair
    decide
  · intro c hc
    rcases List.mem_pair.mp hc with rfl | rfl
    · revert pair
      decide
    · revert pair
      decide
  · have hvalue : pair.value = "016" := by
      revert pair
      decide
    rw [hvalue]
    exact ⟨by decide, List.all_eq_true.mp (by decide), by decide⟩

/-- Two players, one with quotes and blanks in the name and one without a name. -/
def oddFighters : List Fighter :=
  [⟨-2, 999, "a \"b\" ", by decide⟩, ⟨7, 0, "", by decide⟩]

/-- Rules that are known already are overwritten, and players are added to those who are
there. -/
theorem receive_statusText_overwriting :
    let x : Exchange :=
      { server := { name := some "old", map := some "old", rules := [⟨"mapname", "old"⟩] }
        session.nextPlayer := 2049 }
    x.receive .q3 { rulePolicy := .overwrite } (some .status) ∅ (statusOctets busyPairs oddFighters)
      = ({ server :=
            { name := some "old"
              map := some "q3dm17"
              maxPlayers := 16
              numPlayers := 2
              rules := [⟨"mapname", "q3dm17"⟩, ⟨"sv_maxclients", "016"⟩, ⟨"g_motd", ""⟩]
              players :=
                [{ number := 2049, name := "a \"b\" ", score := some (-2), ping := some 999 },
                  { number := 2050, name := "", score := some 7, ping := some 0 }] }
           session.nextPlayer := 2051 },
          { outcome := .done true
            answered := PhaseSet.ofList [.status, .rules, .players] }) := by
  intro x
  obtain ⟨server, hserver, hreceived, -⟩ := @receive_statusText busyPairs sendable_busyPairs
    oddFighters { rulePolicy := .overwrite } x (some .status) ∅ (by decide) (by decide)
    (by decide) (by decide)
  have hadded : x.server.addRules .overwrite busyPairs = .ok _ := rfl
  rw [hreceived, Except.ok.inj (hserver.symm.trans hadded)]
  decide +kernel

end ServerProbe.Protocol.Quake3
