/-!
How a report shows bytes: short ones in full, longer ones by their length, a digest and both ends.
-/

namespace DemandPaging

def fnvDigest (bytes : Array UInt8) : UInt64 :=
  bytes.foldl (fun digest byte => (digest ^^^ byte.toUInt64) * 0x100000001b3) 0xcbf29ce484222325

def hexDigit (value : Nat) : Char :=
  Nat.digitChar value

def hexBytes (bytes : Array UInt8) : String :=
  String.ofList (bytes.toList.flatMap fun byte =>
    [hexDigit (byte.toNat / 16), hexDigit (byte.toNat % 16)])

def digestText (digest : UInt64) : String :=
  String.ofList ((List.range 16).map fun place =>
    hexDigit (digest.toNat >>> (4 * (15 - place)) % 16))

/-- What a report shows of some bytes. -/
inductive BytesReport where
  | full (hex : String)
  | digest (length : Nat) (digest head tail : String)
  deriving DecidableEq

namespace BytesReport

/-- Up to 64 bytes are shown in full; of more the first and the last 16. -/
def ofBytes (bytes : Array UInt8) : BytesReport :=
  if bytes.size ≤ 64 then
    full (hexBytes bytes)
  else
    digest bytes.size (digestText (fnvDigest bytes)) (hexBytes (bytes.extract 0 16))
      (hexBytes (bytes.extract (bytes.size - 16) bytes.size))

end BytesReport

end DemandPaging
