import TraceDiff.Address
import TraceDiff.Keccak
import TraceDiff.Rlp

/-! The address of a contract that an account creates: the last twenty bytes of the hash of the
creator and its nonce. -/
namespace TraceDiff.Address

def ofHash (hash : Bytes) : Address := ofDigits (Text.Hex.encode (hash.drop (hash.length - 20)))

/-- The creator may be of any length and the nonce any item. -/
def created (creator : Bytes) (nonce : Rlp) : Address :=
  ofHash (Keccak.hash (Rlp.encode (.list [.string creator, nonce])))

end TraceDiff.Address
