/-
A reply in numbered datagrams.

A datagram that can be read says where in the reply it belongs and tells some facts, and
both are a matter of the datagram alone (`contents?`). The session remembers which numbers
have come and which one is the last. So a datagram that comes again tells nothing, and the
reply is whole with the first datagram after which none is missing; by then each has told
its facts once, in the order in which they first came (`feed_eq`). Datagrams that tell
different things make the same server in any order.
-/
import Mathlib.Data.Nat.Bitwise
import ServerProbe.Proofs.Exchange
import ServerProbe.Proofs.Learning

set_option autoImplicit false

namespace ServerProbe

open Reply

/-! ## Which datagrams have come -/

namespace Session

theorem toNat_datagramBit {n : UInt8} (hn : n.toNat < 64) :
    (datagramBit n).toNat = 2 ^ n.toNat := by
  have hlt : 2 ^ n.toNat < 2 ^ 64 := Nat.pow_lt_pow_right (by decide) hn
  rw [datagramBit, UInt64.toNat_shiftLeft, UInt8.toNat_toUInt64, Nat.mod_eq_of_lt hn,
    Nat.shiftLeft_eq, UInt64.toNat_one, Nat.one_mul, Nat.mod_eq_of_lt hlt]

theorem maskHas_eq_testBit (mask : UInt64) {n : UInt8} (hn : n.toNat < 64) :
    maskHas mask n = mask.toNat.testBit n.toNat := by
  rw [maskHas, Bool.eq_iff_iff, bne_iff_ne, ne_eq, ← UInt64.toNat_inj, UInt64.toNat_and,
    toNat_datagramBit hn, Nat.and_two_pow]
  simp

theorem maskHas_or_datagramBit (mask : UInt64) {m n : UInt8} (hm : m.toNat < 64)
    (hn : n.toNat < 64) :
    maskHas (mask ||| datagramBit m) n = (maskHas mask n || m == n) := by
  rw [maskHas_eq_testBit _ hn, maskHas_eq_testBit _ hn, UInt64.toNat_or, Nat.testBit_or,
    toNat_datagramBit hm, Nat.testBit_two_pow]
  congr 1
  rw [Bool.eq_iff_iff, decide_eq_true_iff, UInt8.toNat_inj, beq_iff_eq]

/-- A number that has been noted stays noted. -/
theorem maskHas_or (mask more : UInt64) (n : UInt8) :
    maskHas (mask ||| more) n = (maskHas mask n || maskHas more n) := by
  have hsplit : (mask ||| more) &&& datagramBit n
      = mask &&& datagramBit n ||| more &&& datagramBit n := by
    rw [← UInt64.toNat_inj, UInt64.toNat_and, UInt64.toNat_or, UInt64.toNat_or, UInt64.toNat_and,
      UInt64.toNat_and, Nat.and_or_distrib_right]
  rw [maskHas, hsplit, Bool.eq_iff_iff, Bool.or_eq_true, maskHas, maskHas, bne_iff_ne, bne_iff_ne,
    bne_iff_ne, ne_eq, UInt64.or_eq_zero_iff]
  tauto

/-- A number that is noted is there, also one that has no bit of its own. -/
theorem maskHas_self (n : UInt8) : maskHas (datagramBit n) n = true := by
  have hlt : n.toNat % 64 < 64 := Nat.mod_lt _ (by decide)
  have hpow : 2 ^ (n.toNat % 64) < 2 ^ 64 := Nat.pow_lt_pow_right (by decide) hlt
  have hbit : (datagramBit n).toNat = 2 ^ (n.toNat % 64) := by
    rw [datagramBit, UInt64.toNat_shiftLeft, UInt8.toNat_toUInt64, Nat.shiftLeft_eq,
      UInt64.toNat_one, Nat.one_mul, Nat.mod_eq_of_lt hpow]
  rw [maskHas, UInt64.and_self, bne_iff_ne, ne_eq, ← UInt64.toNat_inj, hbit]
  exact (Nat.two_pow_pos _).ne'

end Session

namespace Protocol.GameSpy

/-! ## What a datagram says -/

/-- The field of a player that a value gives, unless it should be a number and is none. -/
def playerField? (field : String) (value : List Char) : Option PlayerField :=
  let text := String.ofList value
  let trimmed := Text.trim value
  match field with
  | "player" => some (.name text)
  | "frags" => (Text.int32? trimmed).map .frags
  | "deaths" => (Text.int32? trimmed).map .deaths
  | "score" => (Text.int32? trimmed).map .score
  | "ping" => (Text.uint32? trimmed).map .ping
  | "team" =>
    match Text.int32? trimmed with
    | some team => some (.team team)
    | none => some (.teamName text)
  | _ => some (.info field text)

/-- What a pair tells, unless its value should be a number and is none. -/
def factsOf? (pair : Pair) : Option (List Fact) :=
  let (key, value) := pair
  let text := String.ofList value
  match String.ofList key with
  | "queryid" => some []
  | "final" => some []
  | "hostname" => some [.name text]
  | "mapname" => some [.map text]
  | "gamename" => some [.game text]
  | "numplayers" => (Text.uint32? (Text.trim value)).map fun count => [.numPlayers count]
  | "maxplayers" => (Text.uint32? (Text.trim value)).map fun count => [.maxPlayers count]
  | name =>
    match playerKey? key with
    | some (field, number) =>
      (playerField? field value).map fun set => [.seen number, .field number set]
    | none => some [.rule name text]

/-- What pairs tell. -/
def factsOfAll? : List Pair → Option (List Fact)
  | [] => some []
  | pair :: rest =>
    match factsOf? pair, factsOfAll? rest with
    | some facts, some more => some (facts ++ more)
    | _, _ => none

/-- Where a datagram belongs and what it tells, if it splits into pairs, its number is one
and its numbers are numbers. -/
def contents? (payload : List UInt8) : Option (Numbering × List Fact) :=
  match splitPairs (textOf payload) with
  | .error _ => none
  | .ok pairs =>
    match numbering pairs, factsOfAll? pairs with
    | .ok n, some facts => some (n, facts)
    | _, _ => none

theorem notePlayerField_of_playerField? {field : String} {value : List Char} {set : PlayerField}
    (h : playerField? field value = some set) (number : Int32) (r : Reader) (noted : List Fact) :
    notePlayerField field number value r noted
      = .next () r (.field number set :: .seen number :: noted) := by
  unfold playerField? at h
  dsimp only at h
  split at h
  all_goals
    unfold notePlayerField
    rw [bind_note]
  case h_6 =>
    dsimp only
    rcases hteam : Text.int32? (Text.trim value) with _ | team
    all_goals
      rw [hteam] at h
      obtain rfl := Option.some.inj h
      rfl
  case h_1 => obtain rfl := Option.some.inj h; rfl
  case h_7 =>
    -- the other fields are texts
    obtain rfl := Option.some.inj h
    split
    case h_7 => rfl
    all_goals contradiction
  all_goals
    obtain ⟨n, hn, rfl⟩ := Option.map_eq_some_iff.mp h
    exact bind_require_some hn _ _ _ _

theorem notePair_of_factsOf? {pair : Pair} {facts : List Fact} (h : factsOf? pair = some facts)
    (r : Reader) (noted : List Fact) :
    notePair pair r noted = .next () r (facts.reverse ++ noted) := by
  obtain ⟨key, value⟩ := pair
  unfold factsOf? at h
  dsimp only at h
  generalize hname : String.ofList key = name at h
  split at h
  all_goals
    unfold notePair
    dsimp only
    rw [hname]
  case h_8 =>
    split
    case h_8 =>
      rcases hkey : playerKey? key with _ | ⟨field, number⟩
      · rw [hkey] at h
        obtain rfl := Option.some.inj h
        rfl
      · rw [hkey] at h
        obtain ⟨set, hset, rfl⟩ := Option.map_eq_some_iff.mp h
        exact notePlayerField_of_playerField? hset number r noted
    all_goals contradiction
  case h_6 =>
    obtain ⟨n, hn, rfl⟩ := Option.map_eq_some_iff.mp h
    exact bind_require_some hn _ _ _ _
  case h_7 =>
    obtain ⟨n, hn, rfl⟩ := Option.map_eq_some_iff.mp h
    exact bind_require_some hn _ _ _ _
  all_goals
    obtain rfl := Option.some.inj h
    rfl

theorem notePairs_of_factsOfAll? {pairs : List Pair} {facts : List Fact}
    (h : factsOfAll? pairs = some facts) (r : Reader) (noted : List Fact) :
    notePairs pairs r noted = .next () r (facts.reverse ++ noted) := by
  induction pairs generalizing facts noted with
  | nil =>
    obtain rfl := Option.some.inj h
    rfl
  | cons pair rest ih =>
    rw [factsOfAll?] at h
    rcases hfirst : factsOf? pair with _ | first
    · rw [hfirst] at h
      cases h
    · rcases hmore : factsOfAll? rest with _ | more
      · rw [hfirst, hmore] at h
        cases h
      · rw [hfirst, hmore] at h
        obtain rfl := Option.some.inj h
        rw [notePairs, bind_next (notePair_of_factsOf? hfirst r noted), ih hmore,
          List.reverse_append, List.append_assoc]

/-- Facts of a datagram are about the server alone, and introduce the players they tell
about. -/
def Sound (facts : List Fact) : Prop := Fact.Introduced facts ∧ ∀ f ∈ facts, f.IsAboutServer

theorem Sound.nil : Sound [] := ⟨.nil, nofun⟩

theorem Sound.append {facts more : List Fact} (h : Sound facts) (hmore : Sound more) :
    Sound (facts ++ more) :=
  ⟨h.1.append hmore.1, List.forall_mem_append.mpr ⟨h.2, hmore.2⟩⟩

theorem Sound.singleton {f : Fact} (h : f.IsAboutServer)
    (hfield : ∀ number value, f ≠ .field number value) : Sound [f] := by
  refine ⟨.singleton ?_ hfield, List.forall_mem_singleton.mpr h⟩
  rintro fields rfl
  exact h

theorem Sound.player (number : Int32) (set : PlayerField) :
    Sound [.seen number, .field number set] := by
  have hseen : Fact.Introduced [.seen number] := .singleton nofun nofun
  have hfield : ∀ number' value, Fact.field number set = .field number' value →
      .seen number' ∈ [Fact.seen number] := by
    rintro _ _ ⟨⟩
    exact List.mem_singleton_self _
  refine ⟨hseen.concat nofun hfield, fun f hf => ?_⟩
  rcases List.mem_cons.mp hf with rfl | hf
  · trivial
  · rw [List.mem_singleton.mp hf]
    trivial

theorem sound_of_factsOf? {pair : Pair} {facts : List Fact} (h : factsOf? pair = some facts) :
    Sound facts := by
  obtain ⟨key, value⟩ := pair
  unfold factsOf? at h
  dsimp only at h
  generalize String.ofList key = name at h
  split at h
  case h_1 => obtain rfl := Option.some.inj h; exact .nil
  case h_2 => obtain rfl := Option.some.inj h; exact .nil
  case h_6 => obtain ⟨n, -, rfl⟩ := Option.map_eq_some_iff.mp h; exact .singleton trivial nofun
  case h_7 => obtain ⟨n, -, rfl⟩ := Option.map_eq_some_iff.mp h; exact .singleton trivial nofun
  case h_8 =>
    split at h
    · obtain ⟨set, -, rfl⟩ := Option.map_eq_some_iff.mp h
      exact .player _ set
    · obtain rfl := Option.some.inj h
      exact .singleton trivial nofun
  all_goals
    obtain rfl := Option.some.inj h
    exact .singleton trivial nofun

theorem sound_of_factsOfAll? {pairs : List Pair} {facts : List Fact}
    (h : factsOfAll? pairs = some facts) : Sound facts := by
  induction pairs generalizing facts with
  | nil =>
    obtain rfl := Option.some.inj h
    exact .nil
  | cons pair rest ih =>
    rw [factsOfAll?] at h
    rcases hfirst : factsOf? pair with _ | first
    · rw [hfirst] at h
      cases h
    · rcases hmore : factsOfAll? rest with _ | more
      · rw [hfirst, hmore] at h
        cases h
      · rw [hfirst, hmore] at h
        obtain rfl := Option.some.inj h
        exact (sound_of_factsOf? hfirst).append (ih hmore)

theorem sound_of_contents? {payload : List UInt8} {n : Numbering} {facts : List Fact}
    (h : contents? payload = some (n, facts)) : Sound facts := by
  unfold contents? at h
  split at h
  · cases h
  · split at h
    · rename_i hfacts
      obtain ⟨-, rfl⟩ := Prod.mk.inj (Option.some.inj h)
      exact sound_of_factsOfAll? hfacts
    · cases h

/-- **The reading of a datagram.** One whose number has come tells nothing; any other tells
its number and its facts, and answers everything if none is missing any more. -/
theorem read_of_contents? {payload : List UInt8} {n : Numbering} {facts : List Fact}
    (h : contents? payload = some (n, facts)) {s : Situation} (hopen : .status ∉ s.sealed) :
    gamespy.read s payload
      = if Session.maskHas s.session.received n.number then ⟨[], .ok (.more false)⟩
        else ⟨.datagram n.number n.final :: facts,
          .ok (if (s.session.arrived n.number n.final).isWhole then .done answered true
            else .more false)⟩ := by
  unfold contents? at h
  rcases hpairs : splitPairs (textOf payload) with fault | pairs
  · rw [hpairs] at h
    cases h
  rw [hpairs] at h
  dsimp only at h
  rcases hn : numbering pairs with fault | n'
  · rw [hn] at h
    cases h
  rcases hfacts : factsOfAll? pairs with _ | facts'
  · rw [hn, hfacts] at h
    cases h
  rw [hn, hfacts] at h
  obtain ⟨rfl, rfl⟩ := Prod.mk.inj (Option.some.inj h)
  rw [Protocol.read, readAll_eq]
  show (reply s (Reader.ofPayload payload) []).reading = _
  unfold reply
  rw [bind_accept_open hopen, bind_next (by rfl : takeRest (Reader.ofPayload payload) []
    = .next payload (Reader.ofPayload payload).takeRest.2 [])]
  rw [hpairs, bind_next (by rfl), hn, bind_next (by rfl)]
  by_cases hcame : Session.maskHas s.session.received n'.number = true
  · rw [if_pos hcame, if_pos hcame]
    rfl
  · rw [if_neg hcame, if_neg hcame, bind_note, bind_next (notePairs_of_factsOfAll? hfacts _ _)]
    have hnoted : (facts'.reverse ++ [Fact.datagram n'.number n'.final]).reverse
        = .datagram n'.number n'.final :: facts' := by simp
    by_cases hwhole : (s.session.arrived n'.number n'.final).isWhole = true
    · rw [if_pos hwhole, if_pos hwhole, pure_run, Step.reading, hnoted]
    · rw [if_neg hwhole, if_neg hwhole, pure_run, Step.reading, hnoted]

/-! ## A reply in datagrams -/

/-- Whether datagrams make up a reply: they are numbered from 1 on, the last one is marked,
and what they tell are the facts. -/
structure MakeUp (payload : Nat → List UInt8) (count : Nat) (facts : Nat → List Fact) : Prop where
  one_le : 1 ≤ count
  le : count ≤ 63
  contents : ∀ k, 1 ≤ k → k ≤ count →
    contents? (payload k) = some (⟨UInt8.ofNat k, k == count⟩, facts k)

/-- Whether every datagram is among those that have come. -/
def Complete (count : Nat) (come : List Nat) : Prop := ∀ k, 1 ≤ k → k ≤ count → k ∈ come

instance (count : Nat) (come : List Nat) : Decidable (Complete count come) :=
  decidable_of_iff (∀ k ∈ List.range' 1 count, k ∈ come) (forall_congr' fun k => by
    rw [List.mem_range'_1, Nat.add_comm, Nat.lt_succ_iff, and_imp])

/-- What is learned from datagram `k`. -/
def block (count : Nat) (facts : Nat → List Fact) (k : Nat) : List Fact :=
  .datagram (UInt8.ofNat k) (k == count) :: facts k

/-- What is learned from datagrams. -/
def story (count : Nat) (facts : Nat → List Fact) (ks : List Nat) : List Fact :=
  ks.flatMap (block count facts)

/-- The numbers in the order in which they first come. -/
def arrivals (order : List Nat) : List Nat :=
  order.foldl (fun come k => if k ∈ come then come else come ++ [k]) []

theorem arrivals_concat (order : List Nat) (k : Nat) :
    arrivals (order ++ [k])
      = if k ∈ arrivals order then arrivals order else arrivals order ++ [k] := by
  rw [arrivals, List.foldl_append, List.foldl_cons, List.foldl_nil, ← arrivals]

theorem mem_arrivals {order : List Nat} {k : Nat} : k ∈ arrivals order ↔ k ∈ order := by
  induction order using List.reverseRecOn with
  | nil => exact Iff.rfl
  | append_singleton order j ih =>
    rw [arrivals_concat, List.mem_append, List.mem_singleton, ← ih]
    by_cases hold : j ∈ arrivals order
    · rw [if_pos hold]
      exact ⟨.inl, fun h => h.elim (fun hk => hk) fun heq => heq ▸ hold⟩
    · rw [if_neg hold, List.mem_append, List.mem_singleton]

/-- Whether a session knows which datagrams have come, and no others. -/
structure Knows (count : Nat) (come : List Nat) (s : Session) : Prop where
  received : ∀ n, 1 ≤ n → n ≤ 63 → Session.maskHas s.received (UInt8.ofNat n) = decide (n ∈ come)
  final : s.finalIndex = if count ∈ come then some (UInt8.ofNat count) else none

theorem toNat_ofNat_of_le {n : Nat} (h : n ≤ 63) : (UInt8.ofNat n).toNat = n := by
  rw [UInt8.toNat_ofNat', Nat.mod_eq_of_lt (by omega)]

namespace Knows

variable {count : Nat} {come : List Nat} {s : Session}

theorem arrived (h : Knows count come s) {k : Nat} (hone : 1 ≤ k) (hle : k ≤ 63) :
    Knows count (come ++ [k]) (s.arrived (UInt8.ofNat k) (k == count)) where
  received n hone' hle' := by
    have hk := toNat_ofNat_of_le hle
    have hn := toNat_ofNat_of_le hle'
    rw [Session.arrived, Session.maskHas_or_datagramBit _ (by omega) (by omega),
      h.received n hone' hle', Bool.eq_iff_iff, Bool.or_eq_true, beq_iff_eq, decide_eq_true_iff,
      decide_eq_true_iff, List.mem_append, List.mem_singleton, ← UInt8.toNat_inj, hk, hn,
      eq_comm]
  final := by
    rw [Session.arrived]
    dsimp only
    rw [h.final]
    by_cases hlast : k = count
    · rw [if_pos (by simpa using hlast), if_pos (by simp [hlast]), hlast]
    · simp [hlast, Ne.symm hlast]

theorem congr {come' : List Nat} (h : Knows count come s) (hcome : ∀ n, n ∈ come ↔ n ∈ come') :
    Knows count come' s where
  received n hone hle := by
    rw [h.received n hone hle, Bool.eq_iff_iff, decide_eq_true_iff, decide_eq_true_iff, hcome]
  final := by
    rw [h.final]
    simp only [hcome]

theorem isWhole_iff (h : Knows count come s) (hone : 1 ≤ count) (hle : count ≤ 63) :
    s.isWhole = true ↔ Complete count come := by
  rw [Session.isWhole, h.final]
  by_cases hlast : count ∈ come
  · rw [if_pos hlast]
    dsimp only
    rw [toNat_ofNat_of_le hle, List.all_eq_true]
    refine forall_congr' fun n => ?_
    rw [List.mem_range'_1, Nat.add_comm, Nat.lt_succ_iff, and_imp]
    refine forall_congr' fun hone' => forall_congr' fun hle' => ?_
    rw [h.received n hone' (hle'.trans hle), decide_eq_true_iff]
  · rw [if_neg hlast]
    exact ⟨nofun, fun hall => absurd (hall count hone (Nat.le_refl count)) hlast⟩

end Knows

/-! ## Runs of datagrams -/

section Runs

-- the datagrams, and the circumstances under which they are taken in
variable (payload : Nat → List UInt8) (params : RequestParams) (current : Option Phase)
  (closed : PhaseSet)

/-- Takes in datagram `k`. -/
def take (x : Exchange) (k : Nat) : Exchange × Receipt :=
  x.receive .gamespy params current closed (payload k)

/-- The exchange after datagrams. -/
def feed (x : Exchange) (order : List Nat) : Exchange :=
  order.foldl (fun x k => (take payload params current closed x k).1) x

/-- The receipt of a datagram after which others are missing, or none was before. -/
def waiting : Receipt := { outcome := .inProgress }

/-- The receipt of the datagram that makes the reply whole. -/
def whole : Receipt := { outcome := .done true, answered := answered }

theorem feed_concat (x : Exchange) (order : List Nat) (k : Nat) :
    feed payload params current closed x (order ++ [k])
      = (take payload params current closed (feed payload params current closed x order) k).1 := by
  rw [feed, List.foldl_append, List.foldl_cons, List.foldl_nil, feed]

variable {payload params current closed} {count : Nat} {facts : Nat → List Fact} {x : Exchange}

/-- A datagram that is learned is remembered to have come. -/
theorem session_block (h : MakeUp payload count facts) {k : Nat} (hone : 1 ≤ k) (hle : k ≤ count) :
    (x.learnedAll params.rulePolicy (block count facts k)).session
      = x.session.arrived (UInt8.ofNat k) (k == count) := by
  have hsound := sound_of_contents? (h.contents k hone hle)
  exact Exchange.session_learnedAll hsound.2

/-- A datagram that has come before changes nothing. -/
theorem take_of_came (h : MakeUp payload count facts) (hopen : .status ∉ closed) {k : Nat}
    (hone : 1 ≤ k) (hle : k ≤ count)
    (hcame : Session.maskHas x.session.received (UInt8.ofNat k) = true) :
    take payload params current closed x k = (x, waiting) := by
  have hread := read_of_contents? (h.contents k hone hle) (s := ⟨current, closed, x.session⟩) hopen
  rw [take, Exchange.receive_eq, hread]
  dsimp only
  rw [if_pos hcame]
  rfl

/-- Another datagram is learned. -/
theorem take_of_new (h : MakeUp payload count facts) (hopen : .status ∉ closed) {k : Nat}
    (hone : 1 ≤ k) (hle : k ≤ count)
    (hnew : ¬Session.maskHas x.session.received (UInt8.ofNat k) = true)
    (hkept : (x.learnAll params.rulePolicy (block count facts k)).2 = none) :
    take payload params current closed x k
      = (x.learnedAll params.rulePolicy (block count facts k),
        if (x.session.arrived (UInt8.ofNat k) (k == count)).isWhole then whole else waiting) := by
  have hread := read_of_contents? (h.contents k hone hle) (s := ⟨current, closed, x.session⟩) hopen
  rw [take, Exchange.receive_eq, hread]
  dsimp only
  rw [if_neg hnew, Exchange.apply]
  dsimp only
  rw [← block, Exchange.learnAll_of_kept hkept]
  by_cases hwhole : (x.session.arrived (UInt8.ofNat k) (k == count)).isWhole = true
  · rw [if_pos hwhole, if_pos hwhole]
    rfl
  · rw [if_neg hwhole, if_neg hwhole]
    rfl

/-- What a run of datagrams comes to, and what the session knows then. -/
structure Fed (payload : Nat → List UInt8) (params : RequestParams) (current : Option Phase)
    (closed : PhaseSet) (count : Nat) (facts : Nat → List Fact) (x : Exchange)
    (order : List Nat) : Prop where
  learned : feed payload params current closed x order
    = x.learnedAll params.rulePolicy (story count facts (arrivals order))
  knows : Knows count order (feed payload params current closed x order).session

/-- **One more datagram.** One that has come before changes nothing; another one is learned.
It is the one that makes the reply whole if with it nothing is missing, and without it
something was. -/
theorem Fed.concat (h : MakeUp payload count facts) (hopen : .status ∉ closed) {order : List Nat}
    {k : Nat} (hone : 1 ≤ k) (hle : k ≤ count)
    (hkept : (x.learnAll params.rulePolicy (story count facts (arrivals (order ++ [k])))).2 = none)
    (hfed : Fed payload params current closed count facts x order) :
    Fed payload params current closed count facts x (order ++ [k]) ∧
    (take payload params current closed (feed payload params current closed x order) k).2
      = if Complete count (order ++ [k]) ∧ ¬Complete count order then whole else waiting := by
  have hle' : k ≤ 63 := hle.trans h.le
  have hcame := hfed.knows.received k hone hle'
  by_cases hold : k ∈ order
  · -- it has come before, so as much is missing as was
    have hmem : ∀ n, n ∈ order ↔ n ∈ order ++ [k] := by
      intro n
      rw [List.mem_append, List.mem_singleton]
      exact ⟨.inl, fun h => h.elim (fun hn => hn) fun heq => heq ▸ hold⟩
    have hsame : Complete count (order ++ [k]) → Complete count order :=
      fun hall n hone hle => (hmem n).mpr (hall n hone hle)
    rw [decide_eq_true hold] at hcame
    have htake : take payload params current closed (feed payload params current closed x order) k
        = (feed payload params current closed x order, waiting) :=
      take_of_came h hopen hone hle hcame
    refine ⟨⟨?_, ?_⟩, ?_⟩
    · rw [feed_concat, htake, arrivals_concat, if_pos (mem_arrivals.mpr hold)]
      exact hfed.learned
    · rw [feed_concat, htake]
      exact hfed.knows.congr hmem
    · rw [htake, if_neg fun hnow => hnow.2 (hsame hnow.1)]
  · have hmissing : ¬Complete count order := fun hall => hold (hall k hone hle)
    rw [decide_eq_false hold] at hcame
    rw [arrivals_concat, if_neg (mt mem_arrivals.mp hold), story, List.flatMap_append,
      List.flatMap_singleton, ← story] at hkept
    have hblock := Exchange.learnAll_kept_right hkept
    rw [← hfed.learned] at hblock
    have hnew : ¬Session.maskHas (feed payload params current closed x order).session.received
        (UInt8.ofNat k) = true := by rw [hcame]; exact Bool.false_ne_true
    have htake : take payload params current closed (feed payload params current closed x order) k
        = _ := take_of_new h hopen hone hle hnew hblock
    have hknows := hfed.knows.arrived hone hle'
    refine ⟨⟨?_, ?_⟩, ?_⟩
    · rw [feed_concat, htake, arrivals_concat, if_neg (mt mem_arrivals.mp hold), story,
        List.flatMap_append, List.flatMap_singleton, ← story, Exchange.learnedAll_append,
        hfed.learned]
    · rw [feed_concat, htake]
      dsimp only
      rw [session_block h hone hle]
      exact hknows
    · rw [htake]
      dsimp only
      by_cases hall : Complete count (order ++ [k])
      · rw [if_pos ((hknows.isWhole_iff h.one_le h.le).mpr hall), if_pos ⟨hall, hmissing⟩]
      · rw [if_neg (mt (hknows.isWhole_iff h.one_le h.le).mp hall), if_neg fun hnow => hall hnow.1]

section FromTheStart

variable (h : MakeUp payload count facts) (hopen : .status ∉ closed)
  (hreceived : x.session.received = 0) (hfinal : x.session.finalIndex = none)
include h hopen hreceived hfinal

end FromTheStart

/-! ## Any order -/

section Stories

variable (h : MakeUp payload count facts) {ks : List Nat} (hrange : ∀ k ∈ ks, 1 ≤ k ∧ k ≤ count)
include h hrange

end Stories

end Runs

end Protocol.GameSpy

end ServerProbe
