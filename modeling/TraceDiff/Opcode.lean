import TraceDiff.Text.Hex

/-! The opcodes whose effects on state a trace shows, and the names traces give them. -/
namespace TraceDiff

inductive Opcode where
  | balance | extcodesize | extcodecopy | extcodehash | blockhash | selfbalance | sload | sstore
  | create | call | callcode | delegatecall | create2 | staticcall | revert | invalid | selfdestruct
deriving DecidableEq, Repr

namespace Opcode

def all : List Opcode := [
  balance, extcodesize, extcodecopy, extcodehash, blockhash, selfbalance, sload, sstore,
  create, call, callcode, delegatecall, create2, staticcall, revert, invalid, selfdestruct]

def name : Opcode → String
  | balance => "BALANCE"
  | extcodesize => "EXTCODESIZE"
  | extcodecopy => "EXTCODECOPY"
  | extcodehash => "EXTCODEHASH"
  | blockhash => "BLOCKHASH"
  | selfbalance => "SELFBALANCE"
  | sload => "SLOAD"
  | sstore => "SSTORE"
  | create => "CREATE"
  | call => "CALL"
  | callcode => "CALLCODE"
  | delegatecall => "DELEGATECALL"
  | create2 => "CREATE2"
  | staticcall => "STATICCALL"
  | revert => "REVERT"
  | invalid => "INVALID"
  | selfdestruct => "SELFDESTRUCT"

/-- The byte that encodes the opcode. -/
def byte : Opcode → UInt8
  | balance => 0x31
  | extcodesize => 0x3B
  | extcodecopy => 0x3C
  | extcodehash => 0x3F
  | blockhash => 0x40
  | selfbalance => 0x47
  | sload => 0x54
  | sstore => 0x55
  | create => 0xF0
  | call => 0xF1
  | callcode => 0xF2
  | delegatecall => 0xF4
  | create2 => 0xF5
  | staticcall => 0xFA
  | revert => 0xFD
  | invalid => 0xFE
  | selfdestruct => 0xFF

def ofName? (s : String) : Option Opcode := all.find? fun o => o.name = s

/-- Calls that open a frame for existing code. -/
def isCall : Opcode → Bool
  | call | callcode | delegatecall | staticcall => true
  | _ => false

/-- Creations, which open a frame for new code. -/
def isCreate : Opcode → Bool
  | create | create2 => true
  | _ => false

def opensFrame (o : Opcode) : Bool := o.isCall || o.isCreate

/-- Calls that run foreign code on the caller's own storage and balance. -/
def keepsContext : Opcode → Bool
  | delegatecall | callcode => true
  | _ => false

/-- Opcodes that look at the code of the account on top of the stack. -/
def inspectsCode : Opcode → Bool
  | extcodesize | extcodecopy | extcodehash => true
  | _ => false

def aborts : Opcode → Bool
  | revert | invalid => true
  | _ => false

/-- Bytes without an opcode are traced in words, which trap like the designated invalid opcode. -/
def isUndefinedName (s : String) : Bool :=
  "opcode ".toList.isPrefixOf s.toList && "not defined".toList.isSuffixOf s.toList

/-- The opcode that a record's name stands for; none if it has no effect on state. -/
def parse? (s : String) : Option Opcode :=
  match ofName? s with
  | some o => some o
  | none =>
    if s = "SUICIDE" then some selfdestruct
    else if isUndefinedName s then some invalid
    else none

@[simp] theorem ofName?_name (o : Opcode) : ofName? o.name = some o := by cases o <;> decide +kernel

@[simp] theorem parse?_name (o : Opcode) : parse? o.name = some o := by simp [parse?]

end Opcode

end TraceDiff
