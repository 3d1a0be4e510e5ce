/-
How what became of a payload agrees with what it did.

The engine looks at the outcome of a payload first and then only at the part of the
receipt that goes with it. So nothing may stand in another part: phases are answered by a
reply alone, only a payload that leaves the matter open asks for the request again or
makes a reply whole, and a fault always says what was wrong.

A parser is free to leave anything in its context, and then to end with a fault. That the
parsers of the four protocols leave only what goes with their outcome is because they come
to what acting on a reading comes to (`Exchange.receive_eq`). There it is enough that a
reading that ends with an answer names what it answers (`Ending.Telling`).
-/
import ServerProbe.Engine
import ServerProbe.Proofs.Exchange

set_option autoImplicit false

namespace ServerProbe

/-! ## Receipts -/

/-- Whether the parts of a receipt agree with the outcome. -/
structure Receipt.Coherent (r : Receipt) : Prop where
  /-- An answer always seals. -/
  sealing : r.outcome ≠ .done false
  /-- It is an answer exactly if it names what it answers. -/
  answered : r.outcome = .done true ↔ r.answered.isEmpty = false
  /-- The request is sent again only while more is expected. -/
  resend : r.resend = true → r.outcome = .inProgress
  /-- A reply is made whole only while more is expected. -/
  completed : r.completed ≠ [] → r.outcome = .inProgress
  /-- One reply at most is made whole. -/
  single : r.completed.length ≤ 1
  /-- There is a text exactly if something was wrong. -/
  message : r.message.isSome = true ↔ ∃ kind, r.outcome = .error kind

theorem Receipt.coherent_ofFault (fault : Fault) : (Receipt.ofFault fault).Coherent where
  sealing := nofun
  answered := ⟨nofun, nofun⟩
  resend := nofun
  completed h := absurd rfl h
  single := Nat.zero_le 1
  message := ⟨fun _ => ⟨fault.kind, rfl⟩, fun _ => rfl⟩

/-- A receipt without a text for a payload that leaves the matter open. -/
theorem Receipt.coherent_inProgress (resend : Bool) (joined : Option (List UInt8)) :
    Coherent { outcome := .inProgress, resend, completed := joined.toList } where
  sealing := nofun
  answered := ⟨nofun, nofun⟩
  resend _ := rfl
  completed _ := rfl
  single := Option.length_toList_le
  message := ⟨nofun, nofun⟩

theorem Receipt.coherent_done {answered : PhaseSet} (h : answered.isEmpty = false) :
    Coherent { outcome := .done true, answered } where
  sealing := nofun
  answered := ⟨fun _ => h, fun _ => rfl⟩
  resend := nofun
  completed h := absurd rfl h
  single := Nat.zero_le 1
  message := ⟨nofun, nofun⟩

/-! ## Endings -/

/-- Whether an ending that answers something seals, and names what it answers. -/
def Ending.Telling : Ending → Prop
  | .done answered sealing => sealing = true ∧ answered.isEmpty = false
  | _ => True

theorem Ending.Plain.telling {ending : Ending} (h : ending.Plain) : ending.Telling := by
  cases ending with
  | done answered sealing => exact ⟨h.1, h.2.1⟩
  | more resend => trivial
  | piece series index count chunk => trivial

theorem Protocol.Tells.telling {p : Protocol} {s : Situation} {payload : List UInt8}
    {reading : Reading} (h : p.Tells s payload reading) {ending : Ending}
    (hending : reading.ending = .ok ending) : ending.Telling := by
  cases h with
  | granted token hout hcurrent =>
    obtain rfl := Except.ok.inj hending
    exact ⟨rfl, rfl⟩
  | renewed token hout hcurrent hheld =>
    obtain rfl := Except.ok.inj hending
    trivial
  | piece series index count chunk hp hlt hroom hlength =>
    obtain rfl := Except.ok.inj hending
    trivial
  | plain _ hfacts hplain => exact (hplain ending hending).telling

namespace Exchange

theorem coherent_conclude (x : Exchange) {ending : Ending} (h : ending.Telling) :
    (x.conclude ending).2.Coherent := by
  cases ending with
  | done answered sealing =>
    obtain ⟨rfl, hsome⟩ := h
    exact Receipt.coherent_done hsome
  | more resend => exact Receipt.coherent_inProgress resend none
  | piece series index count chunk => exact Receipt.coherent_inProgress false _

/-- A payload that was read is accounted for coherently. A fact that does not fit ends it with
a fault, even if what it answers had been named. -/
theorem coherent_apply (policy : DuplicatePolicy) (x : Exchange) {reading : Reading}
    (h : ∀ ending, reading.ending = .ok ending → ending.Telling) :
    (x.apply policy reading).2.Coherent := by
  rcases x.apply_cases policy reading with
    ⟨x', fault, -, happly⟩ | ⟨x', fault, -, -, happly⟩ | ⟨x', ending, -, hending, happly⟩
  · rw [happly]
    exact Receipt.coherent_ofFault fault
  · rw [happly]
    exact Receipt.coherent_ofFault fault
  · rw [happly]
    exact coherent_conclude x' (h ending hending)

/-! ## Payloads -/

section Receives

variable {p : Protocol} {current : Option Phase} {payload : List UInt8} {x : Exchange}
  {result : Exchange × Receipt}

/-- The request is to be sent again only for a token that was not held. -/
theorem Receives.renews (h : Receives p current payload x result)
    (hresend : result.2.resend = true) :
    ∃ token, p.HandsOut x.session payload token ∧ x.session.challenge ≠ some token ∧
      result.1.session.challenge = some token := by
  cases h with
  | granted token hout hcurrent => cases hresend
  | renewed token hout hcurrent hheld => exact ⟨token, hout, hheld, rfl⟩
  | piece series index count chunk hp hlt hroom hlength => cases hresend
  | plain _ hplain =>
    rw [hplain.resend] at hresend
    cases hresend

/-- A payload adds one piece to what is held, or it makes no reply whole and leaves the pieces
alone. -/
theorem Receives.ingests (h : Receives p current payload x result) :
    (result.2.completed = [] ∧ result.1.fragments = x.fragments) ∨
      p = .a2s ∧ ∃ series index count chunk joined, count ≤ Fragment.maxPlaces ∧
        x.fragments.ingest series index count chunk = (result.1.fragments, joined) ∧
          result.2.completed = joined.toList := by
  cases h with
  | granted token hout hcurrent => exact .inl ⟨rfl, rfl⟩
  | renewed token hout hcurrent hheld => exact .inl ⟨rfl, rfl⟩
  | piece series index count chunk hp hlt hroom hlength =>
    exact .inr ⟨hp, series, index, count, chunk, _, hroom, rfl, rfl⟩
  | plain _ hplain => exact .inl ⟨hplain.completed, hplain.fragments⟩

end Receives

/-- **What became of a payload agrees with what it did.** Take any exchange, in whatever state,
and any payload that is read as a reply of any protocol.

* The parts of the receipt agree with the outcome: an answer seals, and a payload is an answer
  exactly if it names what it answers; the request is sent again, or a reply made whole, only
  while more is expected, and one reply at most is; there is a text exactly if something was
  wrong.
* If the request is to be sent again, then the payload hands out a token, and that is held now
  and was not held before.
* One piece at most goes to the pieces that are held, of a reply for which there is memory, and
  a reply is made whole by that piece or not at all.
* What a reply counts for is what it names, never the phase that happens to be asked. -/
theorem receive_coherent (x : Exchange) (p : Protocol) (params : RequestParams)
    (current : Option Phase) (closed : PhaseSet) (payload : List UInt8) :
    let result := x.receive p params current closed payload
    result.2.Coherent ∧
    (result.2.resend = true → ∃ token, p.HandsOut x.session payload token ∧
      x.session.challenge ≠ some token ∧ result.1.session.challenge = some token) ∧
    ((result.2.completed = [] ∧ result.1.fragments = x.fragments) ∨
      p = .a2s ∧ ∃ series index count chunk joined, count ≤ Fragment.maxPlaces ∧
        x.fragments.ingest series index count chunk = (result.1.fragments, joined) ∧
          result.2.completed = joined.toList) ∧
    ∀ sealing, result.2.outcome = .done sealing →
      Engine.credited result.2.answered current = result.2.answered := by
  intro result
  have hreceives : Receives p current payload x result :=
    x.receive_cases p params current closed payload
  have hcoherent : result.2.Coherent := by
    rw [show result = _ from x.receive_eq p params current closed payload]
    exact coherent_apply params.rulePolicy x fun _ =>
      (p.read_tells ⟨current, closed, x.session⟩ payload).telling
  refine ⟨hcoherent, hreceives.renews, hreceives.ingests, fun sealing hdone => ?_⟩
  -- an answer names what it answers, so nothing has to stand in for that
  rw [Engine.credited, (hreceives.of_done hdone).2, if_neg Bool.false_ne_true]

/-- A token that was not asked for is held from then on, and the status is asked again. -/
theorem receive_coherent_renewed :
    let payload := Protocol.A2s.header ++ 0x41 :: Protocol.A2s.tokenOctets 5
    let result := ({} : Exchange).receive .a2s {} (some .status) ∅ payload
    result.2.resend = true ∧ result.2.outcome = .inProgress ∧
      ∃ token, result.1.session.challenge = some token := by
  intro payload result
  have hresend : result.2.resend = true := by decide
  obtain ⟨hcoherent, hrenews, -, -⟩ :=
    receive_coherent {} .a2s {} (some .status) ∅ payload
  obtain ⟨token, -, -, htoken⟩ := hrenews hresend
  exact ⟨hresend, hcoherent.resend hresend, token, htoken⟩

end Exchange

end ServerProbe
