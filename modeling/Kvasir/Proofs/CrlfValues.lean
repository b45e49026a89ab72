import Kvasir.Proofs.StoreHistory
import Kvasir.Proofs.ProtocolParse

/-! Clients that end their lines with CRLF. The scanner takes one carriage return
off a line and Parse takes off all that are left, so what comes back is the value
without the carriage returns it ended in. -/

namespace Kvasir.Server
open Runs Histories Scanner Strings Protocol Proofs.ProtocolParse

/-- What a handler gets of a command that was sent with CRLF. -/
def crlfLine (command : Command) : Bytes := dropCR (spell command ++ [carriageReturn])

/-- A SET of the key, nothing else that writes it, and a GET with this reply. -/
def ReadBack (key value reply : Bytes) (events : List Event) : Prop :=
  ∃ past setter first middle getter future,
    events = past ++ .handle setter (.process (crlfLine ⟨.set, key, value⟩) first) ::
      (middle ++ .handle getter (.process (crlfLine ⟨.get, key, []⟩) reply) :: future) ∧
    ∀ id line other, .handle id (.process line other) ∈ middle → ¬ Touches lineEffect line key

/-- Only the line end is taken off, and the value is what follows the key; it
comes back from every GET until the key is written again. -/
structure Survives (key value : Bytes) : Prop where
  set : parse (crlfLine ⟨.set, key, value⟩) = .ok ⟨.set, key, value⟩
  get : parse (crlfLine ⟨.get, key, []⟩) = .ok ⟨.get, key, []⟩
  read : ∀ store events state reply, run step { store } events = some state → ReadBack key value reply events →
    reply = value ++ [newline]

theorem crlfLine_spell (command : Command) : crlfLine command = spell command := dropCR_crlf _

theorem read_back {key value reply : Bytes} {store : MemoryStore} {events : List Event} {state : State}
    (set : parse (crlfLine ⟨.set, key, value⟩) = .ok ⟨.set, key, value⟩)
    (get : parse (crlfLine ⟨.get, key, []⟩) = .ok ⟨.get, key, []⟩)
    (ran : run step { store } events = some state) (back : ReadBack key value reply events) : reply = value ++ [newline] := by
  obtain ⟨past, setter, first, middle, getter, future, rfl, quiet⟩ := back
  obtain ⟨_, stored, _, setting, rest⟩ := run_at ran
  obtain ⟨asked, _, passed, getting, _⟩ := run_at rest
  have kept : asked.store.get key = stored.store.get key :=
    view_kept (fun store => store.get key)
      (fun id line reply inside store => answer_obeys.untouched store (quiet id line reply inside)) passed
  have wrote := step_answered setting
  rw [answer_set _ set, Prod.mk.injEq] at wrote
  have found : asked.store.get key = some value := by
    rw [kept, ← wrote.1]
    exact MemoryStore.set_get_same _ _ _
  have replied := step_answered getting
  rw [answer_get _ get, found, Prod.mk.injEq] at replied
  exact replied.2.symm

/-- A value survives exactly when neither it nor its key ends in a carriage return. -/
theorem crlf_survives {key value : Bytes} (nonempty : key ≠ []) (spaceless : space ∉ key) (keyClean : newline ∉ key)
    (valueClean : newline ∉ value) :
    Survives key value ↔ key.getLast? ≠ some carriageReturn ∧ value.getLast? ≠ some carriageReturn := by
  have set : parse (crlfLine ⟨.set, key, value⟩) = .ok ⟨.set, key, value⟩ ↔ value.getLast? ≠ some carriageReturn := by
    have formed : WellFormed ⟨.set, key, value⟩ := ⟨nonempty, spaceless, by simp⟩
    have clean : newline ∉ key ++ space :: value := by
      rw [List.mem_append, List.mem_cons, not_or, not_or]
      exact ⟨keyClean, by decide, valueClean⟩
    rw [crlfLine_spell, parse_spell_clean formed clean, ne_eq, set_last return_ends]
  have get : parse (crlfLine ⟨.get, key, []⟩) = .ok ⟨.get, key, []⟩ ↔ key.getLast? ≠ some carriageReturn := by
    have formed : WellFormed ⟨.get, key, []⟩ := ⟨nonempty, spaceless, fun _ => rfl⟩
    rw [crlfLine_spell, parse_spell_clean formed keyClean, operands]
  constructor
  · intro survives
    exact ⟨get.mp survives.get, set.mp survives.set⟩
  · rintro ⟨keyEnds, valueEnds⟩
    exact ⟨set.mpr valueEnds, get.mpr keyEnds, fun _ _ _ _ => read_back (set.mpr valueEnds) (get.mpr keyEnds)⟩

theorem crlf_survives_spaces : Survives (text "name") (text "alice smith ") :=
  (crlf_survives (by decide) (by decide) (by decide) (by decide)).mpr (by decide)

/-- The value "x\r" is sent with CRLF and read back. -/
def doubleReturn : List Event := [.accept 0, .register 0, .spawn 0, .handle 0 (.read (text "SET a x\r\r\nGET a\r\n")),
  .handle 0 (.deliver (text "SET a x\r")), .handle 0 (.process (text "SET a x\r") (text "OK\n")),
  .handle 0 (.write (text "OK\n") true), .handle 0 (.deliver (text "GET a")),
  .handle 0 (.process (text "GET a") (text "x\n"))]

theorem double_return_lost : (run step {} doubleReturn).isSome ∧ ReadBack (text "a") (text "x\r") (text "x\n") doubleReturn ∧
    ¬ Survives (text "a") (text "x\r") := by
  have ran : (run step {} doubleReturn).isSome := by decide
  have back : ReadBack (text "a") (text "x\r") (text "x\n") doubleReturn := by
    refine ⟨doubleReturn.take 5, 0, text "OK\n", (doubleReturn.drop 6).take 2, 0, [], by decide, ?_⟩
    intro id line other member
    simp [doubleReturn] at member
  refine ⟨ran, back, fun survives => ?_⟩
  have reply := survives.read _ _ _ _ (Option.some_get ran).symm back
  revert reply
  decide

end Kvasir.Server
