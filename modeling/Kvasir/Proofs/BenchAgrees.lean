import Kvasir.Bench
import Kvasir.Proofs.PairedReplies
import Kvasir.Proofs.StoreHistory

/-! The load harness against the server. Both sides were written apart: the lines
the clients build, their numerals and the empty value included, are commands to
Parse, and what the store holds once it is seeded makes every check of a reply pass,
however the requests of the clients interleave. -/

namespace Kvasir.Bench
open Runs Histories Strings Utf8 Protocol Server Scanner Proofs.ProtocolParse

/-- What the harness stores everywhere. -/
def xs (valSize : Nat) : Bytes := List.replicate valSize 0x78

def drawCommand (value : Bytes) (draw : Draw) : Option Command :=
  (keyName draw.key).map fun key => if draw.read then ⟨.get, key, []⟩ else ⟨.set, key, value⟩

/-- The reply the harness counts on. -/
def expected (value : Bytes) (command : Command) : Bytes :=
  if command.op = .get then replyValue value else replyOK

section Lines
variable {valSize : Nat}

theorem itoaLoop_visible {i n : Nat} {b digits : Bytes} (wrote : itoaLoop i n b = some digits) (clean : ∀ byte ∈ b, 0x30 ≤ byte) :
    ∀ byte ∈ digits, 0x30 ≤ byte := by
  induction i, n, b using itoaLoop.induct with
  | case1 i b =>
    rw [itoaLoop] at wrote
    cases wrote
    exact clean
  | case2 n b positive =>
    rw [itoaLoop] at wrote
    · cases wrote
    · exact positive
  | case3 b i n positive ih =>
    rw [itoaLoop] at wrote
    · refine ih wrote fun byte member => ?_
      rcases List.mem_cons.mp member with rfl | written
      · rw [UInt8.le_iff_toNat_le, UInt8.toNat_ofNat']
        simp only [UInt8.reduceToNat]
        omega
      · exact clean byte written
    · exact positive

theorem keyName_visible {n : Nat} {key : Bytes} (named : keyName n = some key) : key ≠ [] ∧ ∀ byte ∈ key, 0x30 ≤ byte := by
  obtain ⟨digits, written, rfl⟩ := Option.map_eq_some_iff.mp named
  have clean : ∀ byte ∈ digits, 0x30 ≤ byte := by
    rw [itoa] at written
    split at written
    · cases written
      simp [text]
    · exact itoaLoop_visible written (by simp)
  refine ⟨by simp [text], fun byte member => ?_⟩
  rcases List.mem_append.mp member with word | digit
  · have letters : (text "key").all (0x30 ≤ ·) = true := by decide
    exact of_decide_eq_true (List.all_eq_true.mp letters byte word)
  · exact clean byte digit

/-- A command of the harness on one of its keys. -/
structure Request (valSize : Nat) (command : Command) : Prop where
  named : ∃ n, keyName n = some command.key
  shape : command = ⟨.get, command.key, []⟩ ∨ command = ⟨.set, command.key, xs valSize⟩

theorem Request.set {n : Nat} {key : Bytes} (named : keyName n = some key) : Request valSize ⟨.set, key, xs valSize⟩ :=
  ⟨⟨n, named⟩, .inr rfl⟩

theorem Request.plain {command : Command} (request : Request valSize command) :
    ∀ byte ∈ operands command, byte = space ∨ 0x30 ≤ byte := by
  obtain ⟨n, named⟩ := request.named
  have visible := (keyName_visible named).2
  intro byte member
  rcases request.shape with shape | shape
  · rw [shape] at member
    exact .inr (visible byte member)
  · rw [shape] at member
    simp only [operands, List.mem_append, List.mem_cons] at member
    rcases member with key | rfl | x
    · exact .inr (visible byte key)
    · exact .inl rfl
    · rw [List.eq_of_mem_replicate x]
      exact .inr (by decide)

theorem Request.ends {command : Command} (request : Request valSize command) {byte : UInt8} (ends : byte ∈ lineEnds) :
    byte ∉ operands command := by
  intro member
  rcases request.plain byte member with rfl | high
  · exact space_kept ends
  · rcases lineEnds_member.mp ends with rfl | rfl
    · exact absurd high (by decide)
    · exact absurd high (by decide)

theorem Request.parse {command : Command} (request : Request valSize command) :
    parse (spell command) = .ok command ∧ newline ∉ spell command ∧ dropCR (spell command) = spell command := by
  obtain ⟨n, named⟩ := request.named
  obtain ⟨nonempty, visible⟩ := keyName_visible named
  have spaceless : space ∉ command.key := fun member => absurd (visible space member) (by decide)
  have formed : WellFormed command := by
    refine ⟨nonempty, spaceless, fun other => ?_⟩
    rcases request.shape with shape | shape
    · rw [shape]
    · rw [shape] at other
      exact absurd rfl other
  have clean := fun {byte : UInt8} (ends : byte ∈ lineEnds) => spell_clean ends (request.ends ends)
  refine ⟨(parse_spell formed).mpr fun last ends member => ?_, clean newline_ends, dropCR_self (clean return_ends)⟩
  exact request.ends member (List.mem_of_getLast? ends)

end Lines

section Client
variable {valSize : Nat}

/-- The command of one draw. -/
def Asks (valSize : Nat) (draws : List Draw) (index : Nat) (command : Command) : Prop :=
  draws[index]?.bind (drawCommand (xs valSize)) = some command

theorem setLine_spell (key value : Bytes) : setLine key value = spell ⟨.set, key, value⟩ ++ [newline] := by
  simp [setLine, spell, verb, operands, text, space]

theorem requestLine_spell (value : Bytes) (draw : Draw) :
    requestLine value draw = (drawCommand value draw).map fun command => spell command ++ [newline] := by
  rw [requestLine, drawCommand, Option.map_map]
  congr 1
  funext key
  cases draw.read with
  | true => rfl
  | false => exact setLine_spell key value

theorem drawCommand_request {draw : Draw} {command : Command} (drawn : drawCommand (xs valSize) draw = some command) :
    keyName draw.key = some command.key ∧ Request valSize command := by
  obtain ⟨key, named, rfl⟩ := Option.map_eq_some_iff.mp drawn
  cases draw.read with
  | true => exact ⟨named, ⟨_, named⟩, .inl rfl⟩
  | false => exact ⟨named, ⟨_, named⟩, .inr rfl⟩

theorem Asks.request {draws : List Draw} {index : Nat} {command : Command} (asks : Asks valSize draws index command) :
    ∃ draw ∈ draws, keyName draw.key = some command.key ∧ Request valSize command := by
  obtain ⟨draw, drawn, asked⟩ := Option.bind_eq_some_iff.mp asks
  exact ⟨draw, List.mem_of_getElem? drawn, drawCommand_request asked⟩

/-- A client writes the lines of its requests, in order. -/
theorem run_sent (draws : List Draw) (writes : Nat) (inbound : Bytes) :
    ∃ commands : List Command, (run (xs valSize) draws writes inbound).sent = Lines.unlines newline (commands.map spell) ∧
      ∀ (index : Nat) command, commands[index]? = some command → Asks valSize draws index command := by
  induction draws generalizing writes inbound with
  | nil => exact ⟨[], rfl, by simp⟩
  | cons draw draws ih =>
    have first : ∀ {command}, drawCommand (xs valSize) draw = some command →
        ∀ (index : Nat) other, [command][index]? = some other → Asks valSize (draw :: draws) index other := by
      intro command drawn index other found
      cases index with
      | zero => simpa [Asks, drawn] using found
      | succ index => simp at found
    unfold run
    rw [requestLine_spell]
    cases drawn : drawCommand (xs valSize) draw with
    | none => exact ⟨[], by simp, by simp⟩
    | some command =>
      cases writes with
      | zero => exact ⟨[], by simp, by simp⟩
      | succ writes =>
        simp only [Option.map_some]
        cases Lines.cut newline inbound with
        | none => exact ⟨[command], by simp, first drawn⟩
        | some parts =>
          obtain ⟨reply, inbound⟩ := parts
          dsimp only
          split
          · exact ⟨[command], by simp, first drawn⟩
          · obtain ⟨commands, sent, asked⟩ := ih writes inbound
            refine ⟨command :: commands, by simp [Outcome.after, sent], fun index other found => ?_⟩
            cases index with
            | zero => simpa [Asks, drawn] using found
            | succ index => exact asked index other (by simpa using found)

theorem expected_single (valSize : Nat) (command : Command) : ∃ reply, expected (xs valSize) command = reply ++ [newline] ∧
    newline ∉ reply ∧ unexpected (reply ++ [newline]) = false := by
  unfold expected
  split
  · refine ⟨xs valSize, rfl, fun member => absurd (List.eq_of_mem_replicate member) (by decide), ?_⟩
    cases valSize <;> rfl
  · exact ⟨text "OK", rfl, by decide, by decide⟩

theorem run_checked {draws : List Draw} {writes : Nat} {inbound : Bytes} {answers : List Bytes}
    (arrives : inbound <+: answers.flatten)
    (right : ∀ (index : Nat) reply, answers[index]? = some reply →
      ∃ command, Asks valSize draws index command ∧ reply = expected (xs valSize) command) :
    (∀ reply line, (run (xs valSize) draws writes inbound).error ≠ some (.unexpected reply line)) ∧
    ∀ (index : Nat) reply, (run (xs valSize) draws writes inbound).replies[index]? = some reply →
      ∃ command, Asks valSize draws index command ∧ reply = expected (xs valSize) command := by
  induction draws generalizing writes inbound answers with
  | nil => simp [run]
  | cons draw draws ih =>
    unfold run
    cases requestLine (xs valSize) draw with
    | none => simp
    | some line =>
      cases writes with
      | zero => simp
      | succ writes =>
        dsimp only
        cases cut : Lines.cut newline inbound with
        | none => simp
        | some parts =>
          obtain ⟨reply, rest⟩ := parts
          cases answers with
          | nil =>
            rw [List.flatten_nil, List.prefix_nil] at arrives
            rw [arrives] at cut
            cases cut
          | cons answer answers =>
            obtain ⟨command, asks, same⟩ := right 0 answer rfl
            obtain ⟨body, terminated, single, passes⟩ := expected_single valSize command
            rw [List.flatten_cons, same, terminated, List.append_assoc, List.singleton_append] at arrives
            obtain ⟨rfl, later⟩ := Lines.cut_prefix newline cut arrives single
            obtain ⟨checked, read⟩ := @ih writes rest answers later fun index other found => right (index + 1) other found
            simp only [passes, Bool.false_eq_true, if_false, Outcome.after]
            refine ⟨checked, fun index other found => ?_⟩
            cases index with
            | zero => exact ⟨command, asks, by rw [terminated]; simpa using found.symm⟩
            | succ index => exact read index other found

/-- Seeding that ends well has set every key and read as many replies. -/
theorem populateFrom_done {value : Bytes} {i left writes : Nat} {inbound : Bytes}
    (done : (populateFrom value i left writes inbound).error = none) :
    ∃ commands : List Command, (populateFrom value i left writes inbound).sent = Lines.unlines newline (commands.map spell) ∧
      commands.length = left ∧ left ≤ inbound.count newline ∧
      ∀ (index : Nat) command, commands[index]? = some command →
        ∃ key, keyName (i + index) = some key ∧ command = ⟨.set, key, value⟩ := by
  induction left generalizing i writes inbound with
  | zero => exact ⟨[], rfl, rfl, Nat.zero_le _, by simp⟩
  | succ left ih =>
    unfold populateFrom at done ⊢
    cases named : keyName i with
    | none => simp [named] at done
    | some key =>
      cases writes with
      | zero => simp [named] at done
      | succ writes =>
        simp only [named] at done ⊢
        cases cut : Lines.cut newline inbound with
        | none => simp [cut] at done
        | some parts =>
          obtain ⟨reply, rest⟩ := parts
          simp only [cut, Outcome.after] at done ⊢
          obtain ⟨commands, sent, length, many, all⟩ := ih done
          obtain ⟨rfl, _⟩ := Lines.cut_some newline cut
          refine ⟨⟨.set, key, value⟩ :: commands, by simp [sent, setLine_spell], by simp [length], ?_, fun index command found => ?_⟩
          · rw [List.count_append, List.count_cons_self]
            omega
          · cases index with
            | zero => exact ⟨key, named, by simpa using found.symm⟩
            | succ index =>
              obtain ⟨other, known, same⟩ := all index command (by simpa using found)
              exact ⟨other, by rw [← known]; congr 1; omega, same⟩

end Client

/-- One client's draws, how many lines it can write, and what has arrived for it. -/
structure Session where
  draws : List Draw
  writes : Nat
  inbound : Bytes
  deriving DecidableEq, Repr

/-- A benchmark: one connection seeds the keys, and each other one is a client's. -/
structure Setup where
  valSize : Nat
  keys : Nat
  seeder : ConnId
  seedWrites : Nat
  seedInbound : Bytes
  session : ConnId → Session

namespace Setup
variable (setup : Setup)

def populated : Outcome := populate setup.keys (xs setup.valSize) setup.seedWrites setup.seedInbound

def client (id : ConnId) : Outcome :=
  run (xs setup.valSize) (setup.session id).draws (setup.session id).writes (setup.session id).inbound

/-- Only the benchmark talks to the server, and no client before seeding is done. -/
structure Drives (seeding later : List Event) : Prop where
  seeded : setup.populated.error = none
  seedReads : setup.seedInbound <+: (replies (actions setup.seeder seeding)).flatten
  seedSends : Sends setup.populated.sent (actions setup.seeder (seeding ++ later))
  drawn : ∀ id, ∀ draw ∈ (setup.session id).draws, draw.key < setup.keys
  idle : ∀ id, id ≠ setup.seeder → received (actions id seeding) = []
  reads : ∀ id, id ≠ setup.seeder → (setup.session id).inbound <+: (replies (actions id (seeding ++ later))).flatten
  sends : ∀ id, id ≠ setup.seeder → Sends (setup.client id).sent (actions id (seeding ++ later))

/-- What harness and server agree on. -/
structure Agreed (events : List Event) (state : State) : Prop where
  stored : ∀ n < setup.keys, ∃ key, keyName n = some key ∧ state.store.get key = some (xs setup.valSize)
  replied : ∀ id, id ≠ setup.seeder → ∀ (index : Nat) line reply, (processed (actions id events))[index]? = some (line, reply) →
    ∃ command, Asks setup.valSize (setup.session id).draws index command ∧ line = spell command ∧
      reply = expected (xs setup.valSize) command
  read : ∀ id, id ≠ setup.seeder → ∀ (index : Nat) reply, (setup.client id).replies[index]? = some reply →
    ∃ command, Asks setup.valSize (setup.session id).draws index command ∧ reply = expected (xs setup.valSize) command
  checked : ∀ id, id ≠ setup.seeder → ∀ reply line, (setup.client id).error ≠ some (.unexpected reply line)

end Setup

section Server
variable {valSize : Nat} {store : MemoryStore} {events : List Event} {state : State} {id : ConnId}

theorem processed_request (ran : Runs.run step { store } events = some state) {commands : List Command}
    (requests : ∀ command ∈ commands, Request valSize command)
    (sends : Sends (Lines.unlines newline (commands.map spell)) (actions id events)) {index : Nat} {line reply : Bytes}
    (found : (processed (actions id events))[index]? = some (line, reply)) :
    ∃ command, commands[index]? = some command ∧ line = spell command := by
  have clean : ∀ line ∈ commands.map spell, newline ∉ line := by
    intro line member
    obtain ⟨command, inside, rfl⟩ := List.mem_map.mp member
    exact (requests command inside).parse.2.1
  obtain ⟨raw, sent, rfl⟩ := processed_sent ran clean sends found
  obtain ⟨command, asked, rfl⟩ := Option.map_eq_some_iff.mp (List.getElem?_map .. ▸ sent)
  exact ⟨command, asked, (requests command (List.mem_of_getElem? asked)).parse.2.2⟩

theorem Request.effect {command : Command} (request : Request valSize command) :
    lineEffect (spell command) = if command.op = .set then some (command.key, some (xs valSize)) else none := by
  rw [lineEffect, request.parse.1]
  rcases request.shape with shape | shape <;> rw [shape] <;> rfl

theorem count_replies {answers : List Bytes} (ok : ∀ answer ∈ answers, answer = replyOK) :
    answers.flatten.count newline = answers.length := by
  induction answers with
  | nil => rfl
  | cons answer answers ih =>
    obtain ⟨rfl, rest⟩ := List.forall_mem_cons.mp ok
    have single : replyOK.count newline = 1 := by decide
    rw [List.flatten_cons, List.count_append, ih rest, single, List.length_cons, Nat.add_comm]

theorem processed_idle (ran : Runs.run step { store } events = some state) (nothing : received (actions id events) = []) :
    processed (actions id events) = [] := by
  have progress := progress_run ran id
  have clean : ∀ line ∈ ([] : List Bytes), newline ∉ line := by simp
  obtain ⟨raws, handed, inside, _⟩ := progress.tokens.whole_lines clean (by simp [nothing]) (fun _ => by simp [nothing])
  have lines := progress.lines
  rw [List.takeWhile_nil, List.prefix_nil] at inside
  rw [handed, inside, List.map_nil, eq_comm, List.append_eq_nil_iff] at lines
  exact List.map_eq_nil_iff.mp lines.1

end Server

namespace Setup.Drives
variable {setup : Setup} {store : MemoryStore} {seeding later : List Event} {state : State}

theorem seeds (drives : setup.Drives seeding later) : ∃ commands : List Command, commands.length = setup.keys ∧
    setup.keys ≤ setup.seedInbound.count newline ∧
    Sends (Lines.unlines newline (commands.map spell)) (actions setup.seeder (seeding ++ later)) ∧
    ∀ (index : Nat) command, commands[index]? = some command →
      ∃ key, keyName index = some key ∧ command = ⟨.set, key, xs setup.valSize⟩ := by
  obtain ⟨commands, sent, length, many, all⟩ := populateFrom_done drives.seeded
  have sends := drives.seedSends
  rw [populated, populate, sent] at sends
  exact ⟨commands, length, many, sends, by simpa using all⟩

/-- What a client sent: the requests of its draws, on keys that were seeded. -/
theorem requests (drives : setup.Drives seeding later) {id : ConnId} (client : id ≠ setup.seeder) :
    ∃ commands : List Command, Sends (Lines.unlines newline (commands.map spell)) (actions id (seeding ++ later)) ∧
      ∀ (index : Nat) command, commands[index]? = some command → Asks setup.valSize (setup.session id).draws index command := by
  obtain ⟨commands, sent, asks⟩ := @run_sent setup.valSize (setup.session id).draws (setup.session id).writes
    (setup.session id).inbound
  have sends := drives.sends id client
  rw [Setup.client, sent] at sends
  exact ⟨commands, sends, asks⟩

theorem seed_request {valSize : Nat} {commands : List Command}
    (all : ∀ (index : Nat) command, commands[index]? = some command →
      ∃ key, keyName index = some key ∧ command = ⟨.set, key, xs valSize⟩) : ∀ command ∈ commands, Request valSize command := by
  intro command inside
  obtain ⟨index, there⟩ := List.mem_iff_getElem?.mp inside
  obtain ⟨key, named, rfl⟩ := all index command there
  exact .set named

theorem asks_request {valSize : Nat} {draws : List Draw} {commands : List Command}
    (asks : ∀ (index : Nat) command, commands[index]? = some command → Asks valSize draws index command) :
    ∀ command ∈ commands, Request valSize command := by
  intro command inside
  obtain ⟨index, there⟩ := List.mem_iff_getElem?.mp inside
  obtain ⟨_, _, _, request⟩ := (asks index command there).request
  exact request

theorem asked (drives : setup.Drives seeding later) (ran : Runs.run step { store } (seeding ++ later) = some state)
    {id : ConnId} {line reply : Bytes} (member : .handle id (.process line reply) ∈ seeding ++ later) :
    ∃ command, Request setup.valSize command ∧ line = spell command := by
  obtain ⟨index, found⟩ := List.mem_iff_getElem?.mp (processed_member.mpr member)
  obtain ⟨commands, sends, requests⟩ : ∃ commands : List Command,
      Sends (Lines.unlines newline (commands.map spell)) (actions id (seeding ++ later)) ∧
      ∀ command ∈ commands, Request setup.valSize command := by
    by_cases same : id = setup.seeder
    · subst same
      obtain ⟨commands, _, _, sends, all⟩ := drives.seeds
      exact ⟨commands, sends, seed_request all⟩
    · obtain ⟨commands, sends, asks⟩ := drives.requests same
      exact ⟨commands, sends, asks_request asks⟩
  obtain ⟨command, there, rfl⟩ := processed_request ran requests sends found
  exact ⟨command, requests command (List.mem_of_getElem? there), rfl⟩

theorem set (drives : setup.Drives seeding later) (ran : Runs.run step { store } (seeding ++ later) = some state)
    {n : Nat} (inside : n < setup.keys) : ∃ key reply, keyName n = some key ∧
      .handle setup.seeder (.process (spell ⟨.set, key, xs setup.valSize⟩) reply) ∈ seeding := by
  obtain ⟨commands, length, many, sends, all⟩ := drives.seeds
  obtain ⟨middle, seeded, _⟩ := run_split ran
  have progress := progress_run seeded setup.seeder
  have grows : processed (actions setup.seeder seeding) <+: processed (actions setup.seeder (seeding ++ later)) := by
    rw [actions_append, processed_append]
    exact List.prefix_append _ _
  have shape : ∀ {index : Nat} {line reply}, (processed (actions setup.seeder seeding))[index]? = some (line, reply) →
      ∃ key, keyName index = some key ∧ line = spell ⟨.set, key, xs setup.valSize⟩ := by
    intro index line reply found
    obtain ⟨command, there, rfl⟩ := processed_request ran (seed_request all) sends (Lines.prefix_at grows found)
    obtain ⟨key, named, rfl⟩ := all index command there
    exact ⟨key, named, rfl⟩
  have ok : ∀ answer ∈ replies (actions setup.seeder seeding), answer = replyOK := by
    intro answer written
    obtain ⟨index, there⟩ := List.mem_iff_getElem?.mp written
    obtain ⟨line, found⟩ := progress.answered there
    obtain ⟨key, named, rfl⟩ := shape found
    obtain ⟨_, before, _, _, _, _, answered⟩ := processed_event seeded found
    rw [answer_set before.store (Request.set named).parse.1] at answered
    exact answered.symm
  have read := drives.seedReads.sublist.count_le newline
  rw [count_replies ok] at read
  have answers := progress.ordered.length_le
  rw [List.length_map] at answers
  have there : n < (processed (actions setup.seeder seeding)).length := by omega
  obtain ⟨⟨line, reply⟩, found⟩ : ∃ turn, (processed (actions setup.seeder seeding))[n]? = some turn :=
    ⟨_, List.getElem?_eq_getElem there⟩
  obtain ⟨key, named, rfl⟩ := shape found
  exact ⟨key, reply, named, processed_member.mp (List.mem_of_getElem? found)⟩

/-- From then on every key holds the value, whoever writes it. -/
theorem held (drives : setup.Drives seeding later) (ran : Runs.run step { store } (seeding ++ later) = some state)
    {past : List Event} {before : State} (arrived : Runs.run step { store } (seeding ++ past) = some before)
    (inside : past <+: later) {n : Nat} (known : n < setup.keys) :
    ∃ key, keyName n = some key ∧ before.store.get key = some (xs setup.valSize) := by
  obtain ⟨key, reply, named, member⟩ := drives.set ran known
  refine ⟨key, named, stored_constant arrived ?_ (List.mem_append_left _ member) ?_⟩
  · intro id line answer handled other written effect
    have whole : .handle id (.process line answer) ∈ seeding ++ later :=
      ((List.prefix_append_right_inj seeding).mpr inside).subset handled
    obtain ⟨command, request, rfl⟩ := drives.asked ran whole
    rw [request.effect] at effect
    split at effect
    · cases effect
      rfl
    · cases effect
  · exact ⟨_, (Request.set named).effect⟩

theorem answer_expected {valSize : Nat} {current : MemoryStore} {command : Command} (request : Request valSize command)
    (found : current.get command.key = some (xs valSize)) :
    (answer current (spell command)).2 = expected (xs valSize) command := by
  have parsed := request.parse.1
  rcases request.shape with shape | shape
  · rw [shape] at parsed ⊢
    rw [answer_get current parsed, found]
    rfl
  · rw [shape] at parsed ⊢
    rw [answer_set current parsed]
    rfl

theorem replied (drives : setup.Drives seeding later) (ran : Runs.run step { store } (seeding ++ later) = some state)
    {id : ConnId} (client : id ≠ setup.seeder) {index : Nat} {line reply : Bytes}
    (found : (processed (actions id (seeding ++ later)))[index]? = some (line, reply)) :
    ∃ command, Asks setup.valSize (setup.session id).draws index command ∧ line = spell command ∧
      reply = expected (xs setup.valSize) command := by
  obtain ⟨commands, sends, asks⟩ := drives.requests client
  obtain ⟨command, there, rfl⟩ := processed_request ran (asks_request asks) sends found
  obtain ⟨draw, drawn, named, request⟩ := (asks index command there).request
  obtain ⟨past, before, future, split, arrived, _, answered⟩ := processed_event ran found
  refine ⟨command, asks index command there, rfl, ?_⟩
  -- The client was idle while the keys were set, so its line came after.
  obtain ⟨seeded, first, _⟩ := run_split ran
  have quiet := processed_idle first (drives.idle id client)
  have fresh : .handle id (.process (spell command) reply) ∉ seeding := by
    intro early
    rw [← processed_member, quiet] at early
    cases early
  obtain ⟨after, rfl, rfl⟩ := split_late split fresh
  obtain ⟨key, same, stored⟩ := drives.held ran arrived (List.prefix_append _ _) (drives.drawn id draw drawn)
  rw [named] at same
  cases same
  rw [← answered, answer_expected request stored]

end Setup.Drives

/-- One key with the empty value, and a client that reads it and writes it. -/
def emptyValue : Setup where
  valSize := 0
  keys := 1
  seeder := 0
  seedWrites := 1
  seedInbound := text "OK\n"
  session id := if id = 1 then ⟨[⟨0, true⟩, ⟨0, false⟩], 2, text "\nOK\n"⟩ else ⟨[], 0, []⟩

def seedOne : List Event := [.accept 0, .register 0, .spawn 0, .handle 0 (.read (text "SET key0 \n")),
  .handle 0 (.deliver (text "SET key0 ")), .handle 0 (.process (text "SET key0 ") (text "OK\n")),
  .handle 0 (.write (text "OK\n") true)]

def readAndWrite : List Event := [.accept 1, .register 1, .spawn 1, .handle 1 (.read (text "GET key0\n")),
  .handle 1 (.deliver (text "GET key0")), .handle 1 (.process (text "GET key0") (text "\n")),
  .handle 1 (.write (text "\n") true), .handle 1 (.read (text "SET key0 \n")), .handle 1 (.deliver (text "SET key0 ")),
  .handle 1 (.process (text "SET key0 ") (text "OK\n")), .handle 1 (.write (text "OK\n") true)]

end Kvasir.Bench
