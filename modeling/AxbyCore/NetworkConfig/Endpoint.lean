import AxbyCore.Library.Occurrence
import Mathlib.Algebra.Group.Nat.Defs

/-! ParseEndpoint of network_config/config.cpp, with SimpleAtoi of Abseil as a parameter. -/

namespace AxbyCore.NetworkConfig
open Occurrence

structure Endpoint where
  protocol : List Char
  ip : List Char
  port : Nat := 0
  deriving DecidableEq, Repr

/-- A CHECK, with the message that it fails with. -/
def check (condition : Prop) [Decidable condition] (message : String) : Except String Unit :=
  if condition then .ok () else .error message

def checkSome {α : Type} (result : Option α) (message : String) : Except String α :=
  match result with
  | some value => .ok value
  | none => .error message

def parseEndpoint (simpleAtoi : List Char → Option Nat) (uri : List Char) : Except String Endpoint := do
  let sepProtocol ← checkSome (find [':', '/', '/'] uri) "Missing '://'"
  check (0 < sepProtocol) "Empty protocol"
  let protocol := uri.take sepProtocol
  let uri := uri.drop (sepProtocol + 3)
  let sepPort ← checkSome (rfind ':' uri) "Missing ':' before port"
  check (0 < sepPort) "Empty host/ip"
  let ip := uri.take sepPort
  let portStr := uri.drop (sepPort + 1)
  check (portStr ≠ []) "Empty port"
  let port32 ← checkSome (simpleAtoi portStr) "Non-numeric port"
  check (port32 ≤ 65535) ("Port out of range: " ++ toString port32)
  return { protocol, ip, port := port32 % 2 ^ 16 }

end AxbyCore.NetworkConfig
