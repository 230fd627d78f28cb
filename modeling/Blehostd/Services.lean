import Blehostd.Lookup

namespace Blehostd

-- The result code of a service decoder with its *out_err.
abbrev SvcErr := ErrCode × String

def svcErr (msg : String) (rc : ErrCode) : SvcErr := (rc, msg)

def jsonDsc (parent : Json) : Decoder Lookup SvcErr Gatts.Dsc := do
  let uuid ← need parent "uuid" jsonUuid (svcErr "invalid descriptor UUID")
  let attFlags ← need parent "att_flags" (jsonInt 0 UINT8_MAX) (svcErr "invalid descriptor att_flags")
  let minKeySize ← need parent "min_key_size" (jsonInt 0 UINT8_MAX)
    (svcErr "invalid descriptor flags")
  pure ⟨.known uuid, UInt8.ofInt attFlags, UInt8.ofInt minKeySize⟩

-- What is returned. Every descriptor is decoded to `dscs + num_dscs`, past the end of the
-- block, whose slots keep the bytes that malloc has found there: the junk. The writes
-- themselves are in Services.Memory, and a request with one outside its block is a fault.
def jsonChr (junk : Nat → Gatts.Dsc) (parent : Json) : Decoder Lookup SvcErr Gatts.Chr := do
  let uuid ← need parent "uuid" jsonUuid (svcErr "invalid characteristic UUID")
  let flags ← need parent "flags" (jsonInt 0 UINT16_MAX) (svcErr "invalid characteristic flags")
  let minKeySize ← need parent "min_key_size" (jsonInt 0 UINT8_MAX)
    (svcErr "invalid characteristic flags")
  let arr ← want parent "descriptors" jsonArr (svcErr "invalid descriptors")
  let items := arr.getD []
  let _ ← Decoder.each (fun _ item => jsonDsc item) 0 items
  let dscs := (List.range items.length).map junk
  pure ⟨uuid, UInt16.ofInt flags, UInt8.ofInt minKeySize, dscs⟩

def jsonSvc (junk : Nat → Nat → Gatts.Dsc) (parent : Json) : Decoder Lookup SvcErr Gatts.Svc := do
  let type ← need parent "type" jsonSvcType (svcErr "invalid service type")
  let uuid ← need parent "uuid" jsonUuid (svcErr "invalid service UUID")
  let arr ← want parent "characteristics" jsonArr (svcErr "invalid characteristics")
  let chrs ← Decoder.each (fun ci item => jsonChr (junk ci) item) 0 (arr.getD [])
  pure ⟨type, uuid, chrs⟩

end Blehostd
