import Kvasir.Lib.Strings

/-! Text lines into commands and replies into bytes. Nothing here knows about
the store or the network. -/

namespace Kvasir.Protocol
open Strings

inductive Op where
  | get
  | set
  | del
  deriving DecidableEq, Repr

structure Command where
  op : Op
  key : Bytes
  value : Bytes
  deriving DecidableEq, Repr

inductive ParseError where
  | empty
  | oneKey (verb : Bytes)
  | keyAndValue
  | unknown (word : Bytes)
  deriving DecidableEq, Repr

def ParseError.message : ParseError → Bytes
  | .empty => text "empty command"
  | .oneKey verb => verb ++ text " takes exactly one key"
  | .keyAndValue => text "SET takes a key and a value"
  | .unknown word => text "unknown command " ++ quote word

def lineEnds : Bytes := [carriageReturn, newline]

/-- Reads one line like "SET name alice smith". Everything after the key is
the value, so values can hold spaces without quoting rules. -/
def parse (line : Bytes) : Except ParseError Command :=
  let line := trimRight lineEnds line
  if trimSpace line = [] then .error .empty
  else
    let parts := splitN space 3 line
    let word := parts.headD []
    let verb := toUpper word
    if verb = text "GET" ∨ verb = text "DEL" then
      match parts with
      | [_, key] =>
        if key = [] then .error (.oneKey verb)
        else .ok { op := if verb = text "DEL" then .del else .get, key, value := [] }
      | _ => .error (.oneKey verb)
    else if verb = text "SET" then
      match parts with
      | [_, key, value] => if key = [] then .error .keyAndValue else .ok { op := .set, key, value }
      | _ => .error .keyAndValue
    else .error (.unknown word)

/-- The two results of a call: next to an error stands the zero Command. -/
def parseResults (line : Bytes) : Command × Option ParseError :=
  match parse line with
  | .ok command => (command, none)
  | .error error => ({ op := .get, key := [], value := [] }, some error)

/-! Replies are single lines. A stored value that equals "(nil)" reads the
same as a miss, the price of a human readable protocol. -/

def replyValue (value : Bytes) : Bytes := value ++ [newline]

def replyNil : Bytes := text "(nil)\n"

def replyOK : Bytes := text "OK\n"

def replyInt (number : Int) : Bytes := formatInt number ++ [newline]

def replyError (error : ParseError) : Bytes := text "ERR " ++ error.message ++ [newline]

example : parse (text "SET name alice smith jr") = .ok ⟨.set, text "name", text "alice smith jr"⟩ := by decide

example : parse (text "get name\r\n") = .ok ⟨.get, text "name", []⟩ := by decide

example : parse (text "GET a b") = .error (.oneKey (text "GET")) := by decide

end Kvasir.Protocol
