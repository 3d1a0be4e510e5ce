/-
How a server may be named.

A name is a protocol, a colon, and where the server is: a host with or without a port, in
brackets or not. `Locates` lists the four forms. Outside brackets the colons decide, since a
host may hold some itself: one colon stands before a port, and with several there is no port.
Reading accepts exactly these names, and what it yields is what they say (`ofText_grammar`).
Within brackets a host may be anything that does not close them, so every server can be named
in full.
-/
import ServerProbe.Proofs.Text
import ServerProbe.TargetSpec

set_option autoImplicit false

namespace ServerProbe

/-! ## Names of protocols -/

namespace Protocol

theorem ofId?_eq_some_iff {id : String} {p : Protocol} : ofId? id = some p ↔ id = p.id := by
  constructor
  · intro h
    unfold ofId? at h
    have hid := List.find?_some h
    exact (beq_iff_eq.mp hid).symm
  · rintro rfl
    exact p.ofId?_id

theorem colon_not_mem_id (p : Protocol) : ':' ∉ p.id.toList := by
  cases p
  all_goals decide

end Protocol

namespace TargetSpec

/-! ## The grammar -/

/-- Whether a text says where a server is: at a host, and at a port that is written or not. -/
inductive Locates : List Char → List Char → Option (List Char) → Prop where
  | bracketed {host : List Char} : ']' ∉ host → Locates ('[' :: (host ++ [']'])) host none
  | bracketedPort {host port : List Char} : ']' ∉ host →
      Locates ('[' :: (host ++ ']' :: ':' :: port)) host (some port)
  /-- The only colon stands before the port. -/
  | plainPort {host port : List Char} : (host ++ ':' :: port).count ':' = 1 →
      (host ++ ':' :: port).head? ≠ some '[' → Locates (host ++ ':' :: port) host (some port)
  /-- A host may hold several colons, but not just one. -/
  | plain {host : List Char} : host.count ':' = 0 ∨ 2 ≤ host.count ':' →
      host.head? ≠ some '[' → Locates host host none

/-- The port that is meant: the usual one if none is written, else the one that is denoted. -/
inductive Means (usual : UInt16) : Option (List Char) → UInt16 → Prop where
  | usual : Means usual none usual
  | written {digits : List Char} {port : UInt16} : Text.Denotes digits port.toNat →
      Means usual (some digits) port

/-- Whether a text names a server: by its protocol, a colon and where it is. -/
def Names (text : List Char) (spec : TargetSpec) : Prop :=
  ∃ address port, text = spec.protocol.id.toList ++ ':' :: address ∧
    Locates address spec.host.toList port ∧ spec.host ≠ "" ∧
    Means spec.protocol.defaultPort port spec.port

/-- A server named in full. -/
def text (spec : TargetSpec) : String :=
  spec.protocol.id ++ ":[" ++ spec.host ++ "]:" ++ Text.decimalText spec.port.toNat

/-! ## Reading by the grammar -/

theorem count_colon (host port : List Char) :
    (host ++ ':' :: port).count ':' = host.count ':' + port.count ':' + 1 := by
  rw [List.count_append, List.count_cons_self]
  omega

/-- Host and port are only told apart as the grammar has them. -/
theorem locates_of_splitAddress {address host : List Char} {port : Option (List Char)}
    (h : splitAddress address = .ok (host, port)) : Locates address host port := by
  unfold splitAddress at h
  split at h
  · next rest hstrip =>
    obtain rfl := Text.stripHead?_eq_some_iff.mp hstrip
    split at h
    · cases h
    · next inner tail hcut =>
      obtain ⟨rfl, hinner⟩ := Text.cutFirst?_eq_some_iff.mp hcut
      split at h
      · cases h
        exact .bracketed hinner
      · cases h
        exact .bracketedPort hinner
      · cases h
  · next hstrip =>
    have hopen := Text.stripHead?_eq_none_iff.mp hstrip
    split at h
    · next before after hcut =>
      obtain ⟨rfl, hafter⟩ := Text.cutLast?_eq_some_iff.mp hcut
      have hcount := count_colon before after
      rw [List.count_eq_zero.mpr hafter] at hcount
      split at h
      · next hcolon =>
        -- the last colon is not the only one
        have hmore : 0 < before.count ':' :=
          List.count_pos_iff.mpr (List.contains_iff_mem.mp hcolon)
        cases h
        exact .plain (.inr (by omega)) hopen
      · next hcolon =>
        have hnone : before.count ':' = 0 :=
          List.count_eq_zero.mpr fun hmem => hcolon (List.contains_iff_mem.mpr hmem)
        cases h
        exact .plainPort (by omega) hopen
    · next hcut =>
      cases h
      exact .plain (.inl (List.count_eq_zero.mpr (Text.cutLast?_eq_none_iff.mp hcut))) hopen

/-- What the grammar has is told apart. -/
theorem splitAddress_of_locates {address host : List Char} {port : Option (List Char)}
    (h : Locates address host port) : splitAddress address = .ok (host, port) := by
  have hbracket : ∀ rest, Text.stripHead? '[' ('[' :: rest) = some rest :=
    fun _ => Text.stripHead?_eq_some_iff.mpr rfl
  cases h with
  | bracketed hfree =>
    rw [splitAddress, hbracket]
    dsimp only
    rw [Text.cutFirst?_append hfree]
  | bracketedPort hfree =>
    rw [splitAddress, hbracket]
    dsimp only
    rw [Text.cutFirst?_append hfree]
    rfl
  | @plainPort host digits hcount hopen =>
    rw [count_colon] at hcount
    have hdigits : ':' ∉ digits := List.count_eq_zero.mp (by omega)
    have hhost : ':' ∉ host := List.count_eq_zero.mp (by omega)
    rw [splitAddress, Text.stripHead?_eq_none_iff.mpr hopen, Text.cutLast?_append hdigits]
    exact if_neg fun hcolon => hhost (List.contains_iff_mem.mp hcolon)
  | plain hcount hopen =>
    rw [splitAddress, Text.stripHead?_eq_none_iff.mpr hopen]
    dsimp only
    rcases hcut : Text.cutLast? ':' address with _ | ⟨before, after⟩
    · rfl
    · obtain ⟨rfl, hafter⟩ := Text.cutLast?_eq_some_iff.mp hcut
      rw [count_colon, List.count_eq_zero.mpr hafter] at hcount
      have hbefore : ':' ∈ before := List.count_pos_iff.mp (by omega)
      exact if_pos (List.contains_iff_mem.mpr hbefore)

theorem portOr_eq_ok_iff {usual port : UInt16} {digits : Option (List Char)} :
    portOr usual digits = .ok port ↔ Means usual digits port := by
  rcases digits with _ | digits
  · constructor
    · rintro ⟨⟩
      exact .usual
    · rintro ⟨⟩
      rfl
  · constructor
    · intro h
      unfold portOr at h
      dsimp only at h
      split at h
      · next value hvalue =>
        cases h
        exact .written (Text.uint16?_eq_some_iff.mp hvalue)
      · cases h
    · rintro (_ | hdenotes)
      rw [portOr, Text.uint16?_eq_some_iff.mpr hdenotes]

/-- **A name is read just if the grammar has it,** as the server that it names. -/
theorem ofText_eq_ok_iff {text : String} {spec : TargetSpec} :
    ofText text = .ok spec ↔ Names text.toList spec := by
  constructor
  · intro h
    unfold ofText at h
    split at h
    · cases h
    next id address hcut =>
    obtain ⟨htext, -⟩ := Text.cutFirst?_eq_some_iff.mp hcut
    split at h
    · cases h
    next protocol hprotocol =>
    have hid : id = protocol.id.toList := by
      rw [← Protocol.ofId?_eq_some_iff.mp hprotocol, String.toList_ofList]
    rcases hsplit : splitAddress address with error | ⟨host, digits⟩
    · rw [hsplit] at h
      cases h
    rw [hsplit] at h
    dsimp only [bind, Except.bind] at h
    split at h
    · cases h
    next hhost =>
    rcases hport : portOr protocol.defaultPort digits with error | port
    · rw [hport] at h
      cases h
    rw [hport] at h
    obtain rfl : ⟨protocol, String.ofList host, port⟩ = spec := Except.ok.inj h
    refine ⟨address, digits, hid ▸ htext, ?_, ?_, portOr_eq_ok_iff.mp hport⟩
    · rw [String.toList_ofList]
      exact locates_of_splitAddress hsplit
    · rw [ne_eq, String.ofList_eq_empty_iff]
      simpa using hhost
  · rintro ⟨address, port, htext, hlocates, hhost, hmeans⟩
    have hnonempty : ¬spec.host.toList.isEmpty = true := by simpa using hhost
    rw [ofText, htext, Text.cutFirst?_append (Protocol.colon_not_mem_id _)]
    dsimp only
    rw [String.ofList_toList, Protocol.ofId?_id]
    dsimp only
    rw [splitAddress_of_locates hlocates]
    dsimp only [bind, Except.bind]
    rw [if_neg hnonempty, portOr_eq_ok_iff.mpr hmeans, String.ofList_toList]
    rfl

/-- **Names are read by their grammar.** A text is read as a server exactly if it names it; in
particular, a server whose host is a text without a closing bracket is read from its name in
full. -/
theorem ofText_grammar :
    (∀ (text : String) (spec : TargetSpec), ofText text = .ok spec ↔ Names text.toList spec) ∧
    ∀ spec : TargetSpec, spec.host ≠ "" → ']' ∉ spec.host.toList → ofText spec.text = .ok spec := by
  refine ⟨fun _ _ => ofText_eq_ok_iff, fun spec hhost hfree => ofText_eq_ok_iff.mpr ?_⟩
  have hport : Means spec.protocol.defaultPort (some (Text.decimal spec.port.toNat)) spec.port :=
    .written (Text.denotes_decimal _)
  refine ⟨_, _, ?_, .bracketedPort hfree, hhost, hport⟩
  simp [TargetSpec.text, Text.decimalText]

/-- Brackets and colons in odd places. -/
theorem ofText_grammar_odd :
    ofText "gs4:[fe80::1]:25566" = .ok ⟨.gs4, "fe80::1", 25566⟩ ∧
    ofText "a2s:[a[:b]:+0080" = .ok ⟨.a2s, "a[:b", 80⟩ ∧
    ofText "q3:]::1" = .ok ⟨.q3, "]::1", 27960⟩ ∧
    ofText "gamespy:]:1" = .ok ⟨.gamespy, "]", 1⟩ := by
  obtain ⟨hread, hfull⟩ := ofText_grammar
  refine ⟨hfull ⟨.gs4, "fe80::1", 25566⟩ (by decide) (by decide), (hread _ _).mpr ?_,
    (hread _ _).mpr ?_, (hread _ _).mpr ?_⟩
  · refine ⟨"[a[:b]:+0080".toList, some "+0080".toList, by decide, ?_, by decide, ?_⟩
    · exact @Locates.bracketedPort "a[:b".toList "+0080".toList (by decide)
    · exact .written
        (@Text.Denotes.signed "0080".toList (by decide) (List.all_eq_true.mp (by decide)))
  · exact ⟨"]::1".toList, none, by decide, .plain (.inr (by decide)) (by decide), by decide, .usual⟩
  · refine ⟨"]:1".toList, some "1".toList, by decide, ?_, by decide, ?_⟩
    · exact @Locates.plainPort "]".toList "1".toList (by decide) (by decide)
    · exact .written (@Text.Denotes.digits "1".toList (by decide) (List.all_eq_true.mp (by decide)))

end TargetSpec

end ServerProbe
