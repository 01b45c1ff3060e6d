import PacketGen.Generated.Fallback
import PacketGen.Packet

/-!
# Outcomes

What became of a packet: it was generated from its source, it is written from the container
template, or it is left to be written by hand.
-/

namespace PacketGen

/-- The result of processing one packet. -/
inductive Outcome where
  | generated (packet : Packet)
  | template (name : String)
  | fallback (f : Fallback)
deriving Repr, DecidableEq

namespace Outcome

/-- The name of the packet. -/
def name : Outcome → String
  | generated p => p.name
  | template n => n
  | fallback f => f.name

def isTemplate : Outcome → Bool
  | template _ => true
  | generated _ | fallback _ => false

def isFallback : Outcome → Bool
  | fallback _ => true
  | generated _ | template _ => false

end Outcome

end PacketGen
