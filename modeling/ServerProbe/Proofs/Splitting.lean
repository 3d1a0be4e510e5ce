/-
Splitting a reply is invisible.

A server may cut a reply into pieces, and the pieces may come in any order and more than
once. A piece that is not the last one missing changes nothing but the table of pieces
of its target (`Target.hear_piece`), so while pieces come in the engine stays what it was
but for that table (`receive_pieces`). With the last one the table is again as it was
before the first, and what is left to handle is the reply, as if it had come in one
(`split_invisible`).
-/
import Mathlib.Data.Nat.Bitwise
import ServerProbe.Proofs.Journal

set_option autoImplicit false

namespace ServerProbe

/-! ## Pieces as they are sent -/

namespace Protocol.A2s

/-- What every piece of a split reply starts with. -/
def splitHeader : List UInt8 := [0xFE, 0xFF, 0xFF, 0xFF]

/-- How many pieces a server of a revision can cut a reply into. -/
def maxPieces (revision : Option UInt8) : Nat :=
  if revision = some goldSrcRevision then 15 else 255

/-- Place and count of a piece, as a server of a revision sends them. The size that
stands beside them may be any. -/
def placeOctets (revision : Option UInt8) (index count : Nat) (size : UInt16) : List UInt8 :=
  if revision = some goldSrcRevision then [UInt8.ofNat (0x10 * index + count)]
  else UInt8.ofNat count :: UInt8.ofNat index :: Octets.littleEndian 2 size.toNat

/-- One piece of a split reply. -/
def piece (revision : Option UInt8) (series : UInt32) (index count : Nat) (size : UInt16)
    (chunk : List UInt8) : List UInt8 :=
  splitHeader ++ (Octets.littleEndian 4 series.toNat
    ++ (placeOctets revision index count size ++ chunk))

/-! ## Reading a piece -/

open Reply

theorem int32LE_splitHeader (pos : Nat) (rest : List UInt8) :
    Reader.int32LE ⟨pos, splitHeader ++ rest⟩ = .ok (-2, ⟨pos + 4, rest⟩) := by
  have hlength : splitHeader.length = 4 := rfl
  refine Reader.int32LE_eq_ok_iff.mpr ⟨?_, ?_, ?_⟩
  · rw [List.length_append, hlength]
    omega
  · rw [List.take_left' hlength]
    decide
  · rw [List.drop_left' hlength]

theorem uint32LE_littleEndian (pos : Nat) (value : UInt32) (rest : List UInt8) :
    Reader.uint32LE ⟨pos, Octets.littleEndian 4 value.toNat ++ rest⟩
      = .ok (value, ⟨pos + 4, rest⟩) := by
  have hlength : (Octets.littleEndian 4 value.toNat).length = 4 := Octets.length_littleEndian 4 _
  refine Reader.uint32LE_eq_ok_iff.mpr ⟨?_, ?_, ?_⟩
  · rw [List.length_append, hlength]
    omega
  · rw [List.take_left' hlength, Octets.ofLittleEndian_littleEndian,
      Nat.mod_eq_of_lt value.toNat_lt, UInt32.ofNat_toNat]
  · rw [List.drop_left' hlength]

theorem place_next_of_octets {revision : Option UInt8} {index count : Nat}
    (hindex : index < count) (hcount : count ≤ maxPieces revision) (pos : Nat) (size : UInt16)
    (rest : List UInt8) (noted : List Fact) :
    ∃ pos', place revision ⟨pos, placeOctets revision index count size ++ rest⟩ noted
      = .next (index, count) ⟨pos', rest⟩ noted := by
  unfold place placeOctets
  unfold maxPieces at hcount
  by_cases hrevision : revision = some goldSrcRevision
  · rw [if_pos hrevision] at hcount
    rw [if_pos hrevision, if_pos hrevision]
    -- there are 15 pieces at most, so place and count fit into the halves of an octet
    have hpacked : (UInt8.ofNat (0x10 * index + count)).toNat = 0x10 * index + count := by
      rw [UInt8.toNat_ofNat', Nat.mod_eq_of_lt (by omega)]
    have hread : Reader.uint8 ⟨pos, [UInt8.ofNat (0x10 * index + count)] ++ rest⟩
        = .ok (UInt8.ofNat (0x10 * index + count), ⟨pos + 1, rest⟩) :=
      Reader.uint8_eq_ok_iff.mpr ⟨rest, rfl, rfl⟩
    refine ⟨pos + 1, ?_⟩
    rw [bind_read_ok hread, hpacked, pure_run]
    have hplace : (0x10 * index + count) / 0x10 = index := by omega
    have hof : (0x10 * index + count) % 0x10 = count := by omega
    rw [hplace, hof]
  · rw [if_neg hrevision] at hcount
    rw [if_neg hrevision, if_neg hrevision]
    have hsize : (Octets.littleEndian 2 size.toNat).length = 2 := Octets.length_littleEndian 2 _
    -- count, place and size stand one after another, and the size is not used
    have hcountRead : Reader.uint8 ⟨pos, UInt8.ofNat count :: UInt8.ofNat index
          :: (Octets.littleEndian 2 size.toNat ++ rest)⟩
        = .ok (UInt8.ofNat count, ⟨pos + 1, UInt8.ofNat index
          :: (Octets.littleEndian 2 size.toNat ++ rest)⟩) :=
      Reader.uint8_eq_ok_iff.mpr ⟨_, rfl, rfl⟩
    have hindexRead : Reader.uint8 ⟨pos + 1, UInt8.ofNat index
          :: (Octets.littleEndian 2 size.toNat ++ rest)⟩
        = .ok (UInt8.ofNat index, ⟨pos + 2, Octets.littleEndian 2 size.toNat ++ rest⟩) :=
      Reader.uint8_eq_ok_iff.mpr ⟨_, rfl, rfl⟩
    obtain ⟨_, hsizeRead⟩ : ∃ value, Reader.uint16LE
        ⟨pos + 2, Octets.littleEndian 2 size.toNat ++ rest⟩ = .ok (value, ⟨pos + 4, rest⟩) := by
      refine ⟨_, Reader.uint16LE_eq_ok_iff.mpr ⟨?_, rfl, ?_⟩⟩
      · rw [List.length_append, hsize]
        omega
      · rw [List.drop_left' hsize]
    refine ⟨pos + 4, ?_⟩
    rw [List.cons_append, List.cons_append, bind_read_ok hcountRead, bind_read_ok hindexRead,
      bind_read_ok hsizeRead, pure_run, UInt8.toNat_ofNat', UInt8.toNat_ofNat',
      Nat.mod_eq_of_lt (by omega), Nat.mod_eq_of_lt (by omega)]

theorem and_high_bit {series : UInt32} (h : series < 0x80000000) : series &&& 0x80000000 = 0 := by
  have hlt : series.toNat < 2 ^ 31 := UInt32.lt_iff_toNat_lt.mp h
  refine UInt32.toNat_inj.mp ?_
  -- below 2 ^ 31 the bit is not set
  have hbit : series.toNat &&& 2 ^ 31 = 0 := by
    rw [Nat.and_two_pow, Nat.testBit_lt_two_pow hlt]
    rfl
  rw [UInt32.toNat_and]
  exact hbit

/-- A piece is read as what it is. -/
theorem reply_piece {s : Situation} {series : UInt32} (hseries : series < 0x80000000)
    {index count : Nat} (hindex : index < count) (hcount : count ≤ maxPieces s.session.revision)
    (size : UInt16) (chunk : List UInt8) :
    (reply s).readAll (piece s.session.revision series index count size chunk)
      = ⟨[], .ok (.piece series index count chunk)⟩ := by
  have hmarker := int32LE_splitHeader 0 (Octets.littleEndian 4 series.toNat
    ++ (placeOctets s.session.revision index count size ++ chunk))
  -- marker and series take eight octets
  obtain ⟨pos, hplace⟩ := place_next_of_octets hindex hcount 8 size chunk []
  rw [readAll_eq]
  unfold reply
  rw [Reader.ofPayload, piece, bind_read_ok hmarker, if_neg (by decide), if_pos rfl]
  unfold split
  rw [bind_read_ok (uint32LE_littleEndian 4 series _), and_high_bit hseries, if_neg (by decide),
    bind_next hplace]
  dsimp only
  rw [if_neg (Nat.not_le.mpr hindex)]
  rfl

end Protocol.A2s

/-! ## Deliveries -/

/-- One piece on its way. A server may send a piece more than once. -/
structure Delivery where
  /-- Which piece it is. -/
  place : Nat
  /-- The size that is written on it. -/
  size : UInt16
  arrival : Instant
  deriving Repr, DecidableEq

/-- The datagram of a delivery. -/
def Delivery.datagram (d : Delivery) (revision : Option UInt8) (series : UInt32)
    (chunks : List (List UInt8)) : List UInt8 :=
  Protocol.A2s.piece revision series d.place chunks.length d.size (chunks.getD d.place [])

/-- Deliveries up to the one with which all pieces have come. -/
structure Completes (count : Nat) (earlier : List Delivery) (last : Delivery) : Prop where
  inRange : ∀ d ∈ earlier ++ [last], d.place < count
  missing : ∀ d ∈ earlier, d.place ≠ last.place
  all : ∀ place < count, ∃ d ∈ earlier ++ [last], d.place = place

/-! ## Hearing a piece -/

namespace Target

/-- A target with another table of pieces. -/
def withPieces (t : Target) (fragments : Fragment.Table) : Target :=
  { t with exchange.fragments := fragments }

/-- **A piece changes the table of pieces and nothing else.** -/
theorem hear_piece {t : Target} (hprotocol : t.protocol = .a2s) {series : UInt32}
    (hseries : series < 0x80000000) {index count : Nat} (hindex : index < count)
    (hcount : count ≤ Protocol.A2s.maxPieces t.exchange.session.revision) (size : UInt16)
    (chunk : List UInt8) (now : Instant) :
    t.hear (Protocol.A2s.piece t.exchange.session.revision series index count size chunk) now
      = { target := t.withPieces (t.exchange.fragments.ingest series index count chunk).1
          joined := (t.exchange.fragments.ingest series index count chunk).2 } := by
  have hread := Protocol.A2s.reply_piece
    (s := ⟨t.machine.currentPhase?, t.machine.sealedPhases, t.exchange.session⟩)
    hseries hindex hcount size chunk
  have hexchanged : t.exchanged
        (Protocol.A2s.piece t.exchange.session.revision series index count size chunk)
      = ((t.withPieces (t.exchange.fragments.ingest series index count chunk).1).exchange,
          { outcome := .inProgress
            completed := (t.exchange.fragments.ingest series index count chunk).2.toList }) := by
    rw [exchanged, Exchange.receive_eq, hprotocol, Protocol.read, Protocol.reply, hread]
    rfl
  rw [hear, hexchanged]
  dsimp only
  rw [Receipt.joined, Option.head?_toList]
  rfl

/-- Whether a target takes in the pieces of a reply: the series is a new one that is not
marked as compressed, there is room for it, and the pieces are not too many to be sent. -/
structure TakesIn (t : Target) (series : UInt32) (chunks : List (List UInt8)) : Prop where
  protocol : t.protocol = .a2s
  plain : series < 0x80000000
  closed : t.exchange.fragments.find? series = none
  room : t.exchange.fragments.pending < Fragment.maxSeries
  count : chunks.length ≤ Protocol.A2s.maxPieces t.exchange.session.revision

/-- A target when the pieces of some places of a reply have come to it, but not all. -/
def gathering (t : Target) (series : UInt32) (chunks : List (List UInt8)) (seen : List Nat) :
    Target :=
  t.withPieces (t.exchange.fragments.gathering series chunks seen)

/-- One more piece: either others are still missing, or the reply is whole and the target
is as it was before the first piece. -/
theorem hear_gathering {t : Target} {series : UInt32} {chunks : List (List UInt8)}
    (h : t.TakesIn series chunks) {seen : List Nat}
    (hmissing : ¬∀ other < chunks.length, other ∈ seen) {d : Delivery}
    (hplace : d.place < chunks.length) :
    (t.gathering series chunks seen).hear (d.datagram t.exchange.session.revision series chunks)
        d.arrival
      = if ∀ other < chunks.length, other ∈ d.place :: seen then
          { target := t, joined := some chunks.flatten }
        else { target := t.gathering series chunks (d.place :: seen) } := by
  -- the piece carries the chunk of its place
  have hchunk : chunks[d.place]? = some (chunks.getD d.place []) := by
    rw [List.getD_eq_getElem?_getD, List.getElem?_eq_getElem hplace]
    rfl
  have hhear := hear_piece (t := t.gathering series chunks seen) h.protocol h.plain hplace h.count
    d.size (chunks.getD d.place []) d.arrival
  have hingest := Fragment.Table.ingest_gathering h.closed h.room hchunk hmissing
  change _ = Reaction.mk (t.withPieces ((t.exchange.fragments.gathering series chunks seen).ingest
    series d.place chunks.length _).1) _ ((t.exchange.fragments.gathering series chunks
      seen).ingest series d.place chunks.length _).2 _ _ at hhear
  rw [hingest] at hhear
  refine hhear.trans ?_
  by_cases hall : ∀ other < chunks.length, other ∈ d.place :: seen
  · rw [if_pos hall, if_pos hall]
    rfl
  · rw [if_neg hall, if_neg hall]
    rfl

end Target

/-! ## Receiving the pieces -/

namespace Engine

/-- A payload from an address that the index knows is digested. -/
theorem receive_eq {e : Engine} {t : Target} (h : e.Holds t) (hpending : e.pending = [])
    {sender : Address} (hat : e.idAt? sender = some t.id) (payload : List UInt8) (now : Instant) :
    e.receive sender payload now
      = (t.digest payload now).foldl (fun e m => e.enact m.reaction) e := by
  have hroute : e.route sender = (e, some t.id) := by rw [route, hat]
  rw [receive, hroute]
  dsimp only
  rw [hpending, List.nil_append]
  exact drain_eq h hpending payload now

section Pieces

variable {e : Engine} {t : Target} (h : e.Holds t) (hpending : e.pending = []) {sender : Address}
  (hat : e.idAt? sender = some t.id) {series : UInt32} {chunks : List (List UInt8)}
  (htakes : t.TakesIn series chunks) {seen : List Nat}
  (hmissing : ¬∀ other < chunks.length, other ∈ seen) {d : Delivery}
  (hplace : d.place < chunks.length)
include h hpending hat htakes hmissing hplace

/-- A piece after which others are missing changes the table of pieces. -/
theorem receive_piece (hstill : ¬∀ other < chunks.length, other ∈ d.place :: seen) :
    (e.put (t.gathering series chunks seen)).receive sender
        (d.datagram t.exchange.session.revision series chunks) d.arrival
      = e.put (t.gathering series chunks (d.place :: seen)) := by
  have hhear := Target.hear_gathering htakes hmissing hplace
  rw [if_neg hstill] at hhear
  have hput : (e.put (t.gathering series chunks seen)).Holds (t.gathering series chunks seen) :=
    h.put rfl
  rw [receive_eq hput hpending hat, Target.digest_of_none (congrArg Reaction.waiting? hhear),
    List.foldl_cons, List.foldl_nil, Moment.reaction, Target.react, hhear]
  exact enact_put e rfl

/-- The last missing piece does what the whole reply would have done. -/
theorem receive_last (hall : ∀ other < chunks.length, other ∈ d.place :: seen) :
    (e.put (t.gathering series chunks seen)).receive sender
        (d.datagram t.exchange.session.revision series chunks) d.arrival
      = e.receive sender chunks.flatten d.arrival := by
  have hhear := Target.hear_gathering htakes hmissing hplace
  rw [if_pos hall] at hhear
  have hput : (e.put (t.gathering series chunks seen)).Holds (t.gathering series chunks seen) :=
    h.put rfl
  -- the target is put back as it was before the first piece, so nothing has changed
  have hback : (e.put (t.gathering series chunks seen)).enact
      { target := t, joined := some chunks.flatten } = e := by
    rw [enact_put e (by rfl)]
    exact h.alone
  rw [receive_eq hput hpending hat, receive_eq h hpending hat,
    Target.digest_of_some (congrArg Reaction.waiting? hhear), List.foldl_cons, Moment.reaction,
    Target.react, hhear, hback]

end Pieces

/-- The engine after deliveries from an address, one after another. -/
def receiveAll (e : Engine) (sender : Address) (revision : Option UInt8) (series : UInt32)
    (chunks : List (List UInt8)) (deliveries : List Delivery) : Engine :=
  deliveries.foldl
    (fun e d => e.receive sender (d.datagram revision series chunks) d.arrival) e

theorem receiveAll_concat (e : Engine) (sender : Address) (revision : Option UInt8)
    (series : UInt32) (chunks : List (List UInt8)) (deliveries : List Delivery) (d : Delivery) :
    e.receiveAll sender revision series chunks (deliveries ++ [d])
      = (e.receiveAll sender revision series chunks deliveries).receive sender
        (d.datagram revision series chunks) d.arrival := by
  rw [receiveAll, List.foldl_append, List.foldl_cons, List.foldl_nil, receiveAll]

/-- **While a piece is missing,** the engine is what it was but for the table of pieces,
which holds those that have come. -/
theorem receive_pieces {e : Engine} {t : Target} (h : e.Holds t) (hpending : e.pending = [])
    {sender : Address} (hat : e.idAt? sender = some t.id) {series : UInt32}
    {chunks : List (List UInt8)} (htakes : t.TakesIn series chunks) {earlier : List Delivery}
    (hinRange : ∀ d ∈ earlier, d.place < chunks.length) {missing : Nat}
    (hlt : missing < chunks.length) (hmissing : ∀ d ∈ earlier, d.place ≠ missing)
    {seen : List Nat} (hseen : missing ∉ seen) :
    (e.put (t.gathering series chunks seen)).receiveAll sender t.exchange.session.revision series
        chunks earlier
      = e.put (t.gathering series chunks ((earlier.map Delivery.place).reverse ++ seen)) := by
  -- by induction on the deliveries; the set of places that were seen grows
  induction earlier generalizing seen with
  | nil => rfl
  | cons d rest ih =>
    have hnot : missing ∉ d.place :: seen := by
      intro hmem
      rcases List.mem_cons.mp hmem with heq | hmem
      · exact hmissing d List.mem_cons_self heq.symm
      · exact hseen hmem
    have hpiece := receive_piece h hpending hat htakes
      (fun hall => hseen (hall missing hlt)) (hinRange d List.mem_cons_self)
      (fun hall => hnot (hall missing hlt))
    have hrest := ih (fun d' hd' => hinRange d' (List.mem_cons_of_mem d hd'))
      (fun d' hd' => hmissing d' (List.mem_cons_of_mem d hd')) hnot
    rw [receiveAll, List.foldl_cons, hpiece, ← receiveAll, hrest, List.map_cons, List.reverse_cons,
      List.append_assoc, List.singleton_append]

/-- **Splitting a reply is invisible.** A reachable engine holds an active target of the
Source query at an address, and with it a table of pieces with room for one more series.
However a reply is cut, and in whatever order its pieces come, some of them more than
once: with the last missing one the engine is in the state in which the whole reply would
have left it, coming in one at that instant. -/
theorem split_invisible {e : Engine} (hreachable : e.Reachable) {sender : Address} {id : Nat}
    (hat : e.idAt? sender = some id) {t : Target} (hfound : e.target? id = some t)
    (hprotocol : t.protocol = .a2s) {series : UInt32} (hseries : series < 0x80000000)
    (hclosed : t.exchange.fragments.find? series = none)
    (hroom : t.exchange.fragments.pending < Fragment.maxSeries) {chunks : List (List UInt8)}
    (hcount : chunks.length ≤ Protocol.A2s.maxPieces t.exchange.session.revision)
    {earlier : List Delivery} {last : Delivery} (hall : Completes chunks.length earlier last) :
    e.receiveAll sender t.exchange.session.revision series chunks (earlier ++ [last])
      = e.receive sender chunks.flatten last.arrival := by
  have hkept := hreachable.wellKept
  obtain ⟨hmem, rfl⟩ := target?_mem hfound
  have hholds := hkept.holds hmem
  have hlast : last.place < chunks.length := hall.inRange last (by simp)
  have hearlier : ∀ d ∈ earlier, d.place < chunks.length :=
    fun d hd => hall.inRange d (List.mem_append_left _ hd)
  -- before the first delivery no piece has come
  have hstart : e.put (t.gathering series chunks []) = e := hholds.alone
  have htakes : t.TakesIn series chunks := ⟨hprotocol, hseries, hclosed, hroom, hcount⟩
  have hpieces := receive_pieces hholds hkept.quiet hat htakes hearlier hlast hall.missing
    (List.not_mem_nil : last.place ∉ [])
  rw [hstart, List.append_nil] at hpieces
  have hmissing : last.place ∉ (earlier.map Delivery.place).reverse := by
    rw [List.mem_reverse, List.mem_map]
    rintro ⟨d, hd, heq⟩
    exact hall.missing d hd heq
  -- with the last delivery all places have been seen
  have hseen : ∀ place < chunks.length,
      place ∈ last.place :: (earlier.map Delivery.place).reverse := by
    intro place hplace
    obtain ⟨d, hd, rfl⟩ := hall.all place hplace
    rcases List.mem_append.mp hd with hd | hd
    · exact List.mem_cons_of_mem _ (List.mem_reverse.mpr (List.mem_map_of_mem hd))
    · obtain rfl : d = last := by simpa using hd
      exact List.mem_cons_self
  rw [receiveAll_concat, hpieces]
  exact receive_last hholds hkept.quiet hat htakes (fun h => hmissing (h last.place hlast)) hlast
    hseen

/-- A query that has asked for a token. -/
def asked : List Call := [.add .unicast "a2s" ⟨"192.0.2.1", 27015⟩ {} 0 0]

/-- The token, cut in three. -/
def cutToken : List (List UInt8) := [[0xFF, 0xFF, 0xFF, 0xFF], [0x41], [7, 0, 0, 0]]

/-- The last piece comes first and the first one twice; then the token is used. -/
theorem split_invisible_reordered :
    (run asked).receiveAll ⟨"192.0.2.1", 27015⟩ none 77 cutToken
        ([⟨2, 1248, 5⟩, ⟨0, 1248, 3⟩, ⟨0, 0, 4⟩] ++ [⟨1, 1248, 8⟩])
      = (run asked).receive ⟨"192.0.2.1", 27015⟩ [0xFF, 0xFF, 0xFF, 0xFF, 0x41, 7, 0, 0, 0] 8 ∧
    ((run asked).receive ⟨"192.0.2.1", 27015⟩
      [0xFF, 0xFF, 0xFF, 0xFF, 0x41, 7, 0, 0, 0] 8).outbox.length = 2 := by
  have hat : (run asked).idAt? ⟨"192.0.2.1", 27015⟩ = some 1 := by decide
  obtain ⟨t, hfound, hprotocol, hrevision, htable⟩ : ∃ t, (run asked).target? 1 = some t ∧
      t.protocol = .a2s ∧ t.exchange.session.revision = none ∧ t.exchange.fragments = {} :=
    ⟨_, rfl, rfl, rfl, rfl⟩
  have hclosed : t.exchange.fragments.find? 77 = none := by
    rw [htable]
    rfl
  have hroom : t.exchange.fragments.pending < Fragment.maxSeries := by
    rw [htable]
    decide
  have hcount : cutToken.length ≤ Protocol.A2s.maxPieces t.exchange.session.revision := by
    rw [hrevision]
    decide
  have hall : Completes cutToken.length [⟨2, 1248, 5⟩, ⟨0, 1248, 3⟩, ⟨0, 0, 4⟩] ⟨1, 1248, 8⟩ :=
    ⟨by decide, by decide, by decide⟩
  have hinvisible := split_invisible ⟨asked, rfl⟩ hat hfound hprotocol (by decide) hclosed hroom
    hcount hall
  rw [hrevision] at hinvisible
  exact ⟨hinvisible, by decide +kernel⟩

end Engine

end ServerProbe
