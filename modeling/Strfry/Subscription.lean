import Strfry.NostrFilter

/-!
# Subscriptions

`SubId` and `Subscription` (`Subscription.h`).  A subscription id has between 1 and
`MAX_SUBID_SIZE` printable characters other than the quote and the backslash; a string
that is not such an id cannot be one.
-/

namespace Strfry

/-- `MAX_SUBID_SIZE`. -/
def maxSubIdSize : Nat := 64

/-- The characters refused in a subscription id. -/
def SubId.badChar (c : Byte) : Bool := c.val < 0x20 || c.val == 92 || c.val == 34 || c.val ≥ 0x7F

structure SubId where
  val : Bytes
  len : val ≠ [] ∧ val.length ≤ maxSubIdSize
  chars : val.any SubId.badChar = false
deriving DecidableEq

def SubId.x : SubId := ⟨ascii "x", by decide, by decide⟩

/-- The constructor. -/
def SubId.ofBytes (val : Bytes) : Except Err SubId :=
  if hl : val ≠ [] ∧ val.length ≤ maxSubIdSize then
    if hc : val.any SubId.badChar = false then .ok ⟨val, hl, hc⟩
    else .error (.herr "invalid character in subscription id")
  else .error (.herr "invalid subscription id length")

structure Subscription where
  connId : Nat
  subId : SubId
  filterGroup : NostrFilterGroup
  countOnly : Bool := false
  latestEventId : Nat := maxU64

/-- The identity the containers are keyed by. -/
def Subscription.key (sub : Subscription) : Nat × SubId := (sub.connId, sub.subId)

end Strfry
