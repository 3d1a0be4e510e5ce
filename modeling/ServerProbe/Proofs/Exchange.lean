/-
What one payload can do to the exchange with a server.

Learning plain facts touches neither the token nor the pieces that are held, so the
kinds of reading become kinds of change: a payload grants the token that is asked
for, renews it, fills a place in the table of pieces, or does none of that
(`receive_cases`). How far a payload comes is one of three ways: it meets a fact for
which there is no room, breaks off, or comes to its ending (`apply_cases`). Room is a
matter of the server alone, so each fact that is learned changes the conversation as it
says (`learn_session`).
-/
import ServerProbe.Proofs.Fragment
import ServerProbe.Proofs.Parse

set_option autoImplicit false

namespace ServerProbe

namespace Exchange

/-! ## Learning -/

theorem learn_plain (policy : DuplicatePolicy) (x : Exchange) {f : Fact} (h : f.Plain) :
    (x.learn policy f).1.session.challenge = x.session.challenge ∧
      (x.learn policy f).1.fragments = x.fragments := by
  -- a rule and a player may be turned down; the server is then kept as it is
  cases f with
  | token value => exact absurd rfl (h value)
  | rule name value => simp [learn]
  | newcomer fields => simp [learn]
  | seen number => simp [learn]
  | datagram number final => exact ⟨rfl, rfl⟩
  | _ => exact ⟨rfl, rfl⟩

theorem learnAll_plain (policy : DuplicatePolicy) (x : Exchange) {facts : List Fact}
    (h : ∀ f ∈ facts, f.Plain) :
    (x.learnAll policy facts).1.session.challenge = x.session.challenge ∧
      (x.learnAll policy facts).1.fragments = x.fragments := by
  refine learnAll_keeps (P := fun x' => x'.session.challenge = x.session.challenge ∧
    x'.fragments = x.fragments) (fun x' f hf hx' => ?_) ⟨rfl, rfl⟩
  obtain ⟨hchallenge, hfragments⟩ := learn_plain policy x' (h f hf)
  exact ⟨hchallenge.trans hx'.1, hfragments.trans hx'.2⟩

/-! ## Receiving -/

@[simp] theorem conclude_server (x : Exchange) (ending : Ending) :
    (x.conclude ending).1.server = x.server := by
  cases ending <;> rfl

@[simp] theorem conclude_session (x : Exchange) (ending : Ending) :
    (x.conclude ending).1.session = x.session := by
  cases ending <;> rfl

/-- A payload that has been read meets a fact for which there is no room, breaks off, or comes
to its ending. -/
theorem apply_cases (policy : DuplicatePolicy) (x : Exchange) (reading : Reading) :
    (∃ x' fault, x.learnAll policy reading.facts = (x', some fault) ∧
      x.apply policy reading = (x', .ofFault fault)) ∨
    (∃ x' fault, x.learnAll policy reading.facts = (x', none) ∧ reading.ending = .error fault ∧
      x.apply policy reading = (x', .ofFault fault)) ∨
    ∃ x' ending, x.learnAll policy reading.facts = (x', none) ∧ reading.ending = .ok ending ∧
      x.apply policy reading = x'.conclude ending := by
  unfold apply
  rcases x.learnAll policy reading.facts with ⟨x', _ | fault⟩
  · rcases reading.ending with fault | ending
    · exact .inr (.inl ⟨x', fault, rfl, rfl, rfl⟩)
    · exact .inr (.inr ⟨x', ending, rfl, rfl, rfl⟩)
  · exact .inl ⟨x', fault, rfl, rfl⟩

/-- Whether a payload has left the token and the pieces alone, and answered some phases
beyond the challenge or none. -/
structure Unmoved (x : Exchange) (result : Exchange × Receipt) : Prop where
  challenge : result.1.session.challenge = x.session.challenge
  fragments : result.1.fragments = x.fragments
  resend : result.2.resend = false
  completed : result.2.completed = []
  answered : ∀ sealing, result.2.outcome = .done sealing →
    sealing = true ∧ result.2.answered.isEmpty = false ∧ .challenge ∉ result.2.answered

/-- What a payload can do to an exchange, and how it is accounted for. -/
inductive Receives (p : Protocol) (current : Option Phase) (payload : List UInt8) (x : Exchange) :
    Exchange × Receipt → Prop where
  /-- It grants the token that was asked for. -/
  | granted (token : Int32) : p.HandsOut x.session payload token → current = some .challenge →
      Receives p current payload x ({ x with session.challenge := some token },
        { outcome := .done true, answered := PhaseSet.ofList [.challenge] })
  /-- It renews the token while something else is asked. -/
  | renewed (token : Int32) : p.HandsOut x.session payload token → current ≠ some .challenge →
      x.session.challenge ≠ some token →
      Receives p current payload x ({ x with session.challenge := some token },
        { outcome := .inProgress, resend := true })
  /-- It is a piece of a split reply, and there is memory for all of the pieces. -/
  | piece (series : UInt32) (index count : Nat) (chunk : List UInt8) : p = .a2s → index < count →
      count ≤ Fragment.maxPlaces → chunk.length + 9 ≤ payload.length →
      Receives p current payload x
        ({ x with fragments := (x.fragments.ingest series index count chunk).1 },
          { outcome := .inProgress,
            completed := (x.fragments.ingest series index count chunk).2.toList })
  /-- It is plain. -/
  | plain (result : Exchange × Receipt) : x.Unmoved result → Receives p current payload x result

theorem apply_plain (policy : DuplicatePolicy) (x : Exchange) {reading : Reading}
    (hfacts : ∀ f ∈ reading.facts, f.Plain)
    (hending : ∀ ending, reading.ending = .ok ending → ending.Plain) :
    x.Unmoved (x.apply policy reading) := by
  obtain ⟨hchallenge, hfragments⟩ := learnAll_plain policy x hfacts
  -- a fact that does not fit ends the payload, whatever its ending was
  rcases x.apply_cases policy reading with
    ⟨x', fault, hlearn, happly⟩ | ⟨x', fault, hlearn, -, happly⟩ |
      ⟨x', ending, hlearn, hend, happly⟩
  all_goals rw [hlearn] at hchallenge hfragments
  · rw [happly]
    exact ⟨hchallenge, hfragments, rfl, rfl, nofun⟩
  · rw [happly]
    exact ⟨hchallenge, hfragments, rfl, rfl, nofun⟩
  · rw [happly]
    have hplain := hending ending hend
    cases ending with
    | done answered sealing =>
      refine ⟨hchallenge, hfragments, rfl, rfl, ?_⟩
      rintro _ ⟨⟩
      exact hplain
    | more resend => exact ⟨hchallenge, hfragments, hplain, rfl, nofun⟩
    | piece series index count chunk => exact hplain.elim

theorem receive_cases (x : Exchange) (p : Protocol) (params : RequestParams)
    (current : Option Phase) (closed : PhaseSet) (payload : List UInt8) :
    Receives p current payload x (x.receive p params current closed payload) := by
  rw [receive_eq]
  have htells := p.read_tells ⟨current, closed, x.session⟩ payload
  generalize p.read ⟨current, closed, x.session⟩ payload = reading at htells ⊢
  cases htells with
  | granted token hout hcurrent => exact .granted token hout hcurrent
  | renewed token hout hcurrent hheld => exact .renewed token hout hcurrent hheld
  | piece series index count chunk hp hlt hroom hlength =>
    exact .piece series index count chunk hp hlt hroom hlength
  | plain _ hfacts hending => exact .plain _ (apply_plain params.rulePolicy x hfacts hending)

/-- A payload that answers anything seals it, and names what it answers. -/
theorem Receives.of_done {p : Protocol} {current : Option Phase} {payload : List UInt8}
    {x : Exchange} {result : Exchange × Receipt} (h : Receives p current payload x result)
    {sealing : Bool} (hdone : result.2.outcome = .done sealing) :
    sealing = true ∧ result.2.answered.isEmpty = false := by
  cases h with
  | granted token hout hcurrent =>
    cases hdone
    exact ⟨rfl, rfl⟩
  | renewed token hout hcurrent hheld => cases hdone
  | piece series index count chunk hp hlt hroom hlength => cases hdone
  | plain _ hplain =>
    obtain ⟨hsealing, hanswered, -⟩ := hplain.answered sealing hdone
    exact ⟨hsealing, hanswered⟩

/-- A payload makes one reply whole at most. -/
theorem Receives.completed_eq {p : Protocol} {current : Option Phase} {payload : List UInt8}
    {x : Exchange} {result : Exchange × Receipt} (h : Receives p current payload x result) :
    result.2.completed = result.2.joined.toList := by
  cases h with
  | granted token hout hcurrent => rfl
  | renewed token hout hcurrent hheld => rfl
  | piece series index count chunk hp hlt hroom hlength =>
    rw [Receipt.joined, Option.head?_toList]
  | plain _ hplain =>
    rw [Receipt.joined, hplain.completed]
    rfl

/-- A reply that a payload makes whole, and what is held then, are shorter than the
payload and what was held before. -/
theorem Receives.length_joined_le {p : Protocol} {current : Option Phase}
    {payload whole : List UInt8} {x : Exchange} {result : Exchange × Receipt}
    (h : Receives p current payload x result) (hwhole : result.2.joined = some whole) :
    whole.length + result.1.fragments.buffered + 9 ≤ payload.length + x.fragments.buffered := by
  -- a reply is made whole by a piece only, and the head of the piece is used up
  cases h with
  | granted token hout hcurrent => cases hwhole
  | renewed token hout hcurrent hheld => cases hwhole
  | piece series index count chunk hp hlt hroom hlength =>
    rcases hingest : x.fragments.ingest series index count chunk with ⟨fragments, joined⟩
    rw [hingest] at hwhole
    obtain rfl : joined = some whole := Option.head?_toList.symm.trans hwhole
    have hbalance := Fragment.Table.length_joined_le hingest
    dsimp only
    omega
  | plain _ hplain =>
    rw [Receipt.joined, hplain.completed] at hwhole
    cases hwhole

end Exchange

end ServerProbe
