import WalletToolbox.Chaintracks.LiveHeaders

/-! Block headers as the 80 bytes they are stored in. A header is read and written in the
order of its fields; a hash is shown with its bytes reversed. -/

namespace WalletToolbox.Chaintracks

abbrev Bytes := List UInt8

inductive Chain where
  | main
  | test
  | teratest
  | mock
deriving DecidableEq, Repr

def Chain.text : Chain → String
  | .main => "main"
  | .test => "test"
  | .teratest => "teratest"
  | .mock => "mock"

def hexDigit (value : Nat) : Char := if value < 10 then Char.ofNat (48 + value) else Char.ofNat (87 + value)

def asString (bytes : Bytes) : String :=
  String.ofList (bytes.flatMap fun byte => [hexDigit (byte.toNat / 16), hexDigit (byte.toNat % 16)])

def hexValue (digit : Char) : Option Nat :=
  let code := digit.toNat
  if 48 ≤ code ∧ code ≤ 57 then some (code - 48)
  else if 97 ≤ code ∧ code ≤ 102 then some (code - 87)
  else if 65 ≤ code ∧ code ≤ 70 then some (code - 55)
  else none

def pairs : List Nat → Bytes
  | high :: low :: rest => UInt8.ofNat (16 * high + low) :: pairs rest
  | _ => []

def asArray (text : String) : Option Bytes := do
  let digits ← text.toList.mapM hexValue
  pure (pairs (if digits.length % 2 = 0 then digits else 0 :: digits))

def readUInt32LE (bytes : Bytes) : Nat := (bytes.take 4).foldr (fun byte rest => byte.toNat + 256 * rest) 0

def writeUInt32LE (n : Nat) : Bytes :=
  [UInt8.ofNat n, UInt8.ofNat (n / 2 ^ 8), UInt8.ofNat (n / 2 ^ 16), UInt8.ofNat (n / 2 ^ 24)]

def hashPrev (buffer : Bytes) : String := asString ((buffer.drop 4).take 32).reverse

def deserializeBaseBlockHeader (buffer : Bytes) : BaseBlockHeader where
  version := readUInt32LE buffer
  previousHash := hashPrev buffer
  merkleRoot := asString ((buffer.drop 36).take 32).reverse
  time := readUInt32LE (buffer.drop 68)
  bits := readUInt32LE (buffer.drop 72)
  nonce := readUInt32LE (buffer.drop 76)

def serializeBaseBlockHeader (header : BaseBlockHeader) : Option Bytes := do
  let previousHash ← asArray header.previousHash
  let merkleRoot ← asArray header.merkleRoot
  pure (writeUInt32LE header.version ++ previousHash.reverse ++ merkleRoot.reverse ++
    writeUInt32LE header.time ++ writeUInt32LE header.bits ++ writeUInt32LE header.nonce)

/-- Each header is written at its own offset; one that does not fit in the buffer is an error. -/
def writeHeaders : Nat → List BlockHeader → Bytes → Option Bytes
  | _, [], data => some data
  | offset, header :: headers, data => do
    let written ← serializeBaseBlockHeader header.toBaseBlockHeader
    if data.length < offset + written.length then none
    else writeHeaders (offset + 80) headers (data.take offset ++ written ++ data.drop (offset + written.length))

def serializeBaseBlockHeaders (headers : List BlockHeader) : Option Bytes :=
  writeHeaders 0 headers (List.replicate (headers.length * 80) 0)

def genesisHeader : Chain → Option BlockHeader
  | .main => some
      { version := 1
        previousHash := "0000000000000000000000000000000000000000000000000000000000000000"
        merkleRoot := "4a5e1e4baab89f3a32518a88c31bc87f618f76673e2cc77ab2127b7afdeda33b"
        time := 1231006505
        bits := 486604799
        nonce := 2083236893
        height := 0
        hash := "000000000019d6689c085ae165831e934ff763ae46a2a6c172b3f1b60a8ce26f" }
  | .test | .teratest => some
      { version := 1
        previousHash := "0000000000000000000000000000000000000000000000000000000000000000"
        merkleRoot := "4a5e1e4baab89f3a32518a88c31bc87f618f76673e2cc77ab2127b7afdeda33b"
        time := 1296688602
        bits := 486604799
        nonce := 414098458
        height := 0
        hash := "000000000933ea01ad0ee984209779baaec3ced90fa3f408719526f8d77f4943" }
  | .mock => none

def dirtyHashes : List (String × String) :=
  [("00000000000000000019f112ec0a9982926f1258cdcc558dd7c3b7e5dc7fa148", "This is the first header of the invalid SegWit chain."),
   ("0000000000000000004626ff6e3b936941d341c5932ece4357eeccac44e6d56c", "This is the first header of the invalid ABC chain.")]

def zeros : String := "0000000000000000000000000000000000000000000000000000000000000000"

end WalletToolbox.Chaintracks
