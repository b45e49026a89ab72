import Kvasir.Protocol
import Kvasir.Store

/-! The engine that runs inside the demo page. Parsing, replies and the store are
the server's own; the dispatch of a command is a second copy of the server's. -/

namespace Kvasir.Page
open Strings Utf8 Protocol

/-- The map, and the key names that the page has mentioned. -/
structure Engine where
  st : MemoryStore := .new
  seen : List Bytes := []
  deriving DecidableEq

def seenCap : Nat := 64

def remember (seen : List Bytes) (key : Bytes) : List Bytes :=
  if key ∈ seen then seen
  else if seenCap ≤ seen.length then seen
  else seen ++ [key]

def execute (st : MemoryStore) (cmd : Command) : MemoryStore × Bytes :=
  match cmd.op with
  | .get =>
    match st.get cmd.key with
    | none => (st, replyNil)
    | some v => (st, replyValue v)
  | .set => (st.set cmd.key cmd.value, replyOK)
  | .del =>
    let (st, present) := st.delete cmd.key
    if present then (st, replyInt 1) else (st, replyInt 0)

def rows (engine : Engine) : List (Bytes × Bytes) :=
  engine.seen.filterMap fun k => (engine.st.get k).map fun v => (k, v)

structure Result where
  line : Bytes
  touched : Bytes := []
  verb : Bytes := []
  reply : Bytes
  ok : Bool
  rows : List (Bytes × Bytes)
  deriving DecidableEq, Repr

def eval (engine : Engine) (line : Bytes) : Engine × Result :=
  match parse line with
  | .error err => (engine, { line, reply := replyError err, ok := false, rows := rows engine })
  | .ok cmd =>
    let verb := match cmd.op with
      | .get => text "GET"
      | .set => text "SET"
      | .del => text "DEL"
    let seen := match cmd.op with
      | .set => remember engine.seen cmd.key
      | .get | .del => engine.seen
    let (st, reply) := execute engine.st cmd
    let engine : Engine := { st, seen }
    (engine, { line, touched := cmd.key, verb, reply, ok := true, rows := rows engine })

section Eval
variable (engine : Engine) {line : Bytes}

theorem eval_error {err : ParseError} (rejected : parse line = .error err) :
    eval engine line = (engine, { line, reply := replyError err, ok := false, rows := rows engine }) := by
  simp only [eval, rejected]

theorem eval_rows (line : Bytes) : (eval engine line).2.rows = rows (eval engine line).1 := by
  cases parsed : parse line with
  | error err => rw [eval_error engine parsed]
  | ok cmd => simp only [eval, parsed]

end Eval

end Kvasir.Page
