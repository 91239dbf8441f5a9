import CallBoundary.Json.Choice
import CallBoundary.Settings
/-! The settings as JSON text: a record of records of numbers, each member under the name it has there. -/
namespace CallBoundary

namespace Tariff

open Member

def members : List (Member Tariff) :=
  [ofWord "storageWritePerByte" writeByte fun t v => { t with writeByte := v },
   ofWord "storageReadPerByte" readByte fun t v => { t with readByte := v },
   ofWord "storageRemove" removal fun t v => { t with removal := v },
   ofWord "contextRead" contextRead fun t v => { t with contextRead := v },
   ofWord "balanceRead" balanceRead fun t v => { t with balanceRead := v },
   ofWord "transfer" transfer fun t v => { t with transfer := v },
   ofWord "identityRead" identityRead fun t v => { t with identityRead := v },
   ofWord "codeRead" codeRead fun t v => { t with codeRead := v },
   ofWord "codeReadPerByte" codeByte fun t v => { t with codeByte := v },
   ofWord "addressDerivation" derivation fun t v => { t with derivation := v },
   ofWord "event" event fun t v => { t with event := v },
   ofWord "eventPerByte" eventByte fun t v => { t with eventByte := v },
   ofWord "keccak" hash fun t v => { t with hash := v },
   ofWord "keccakPerWord" hashWord fun t v => { t with hashWord := v }]

def read (value : Json) : Option Tariff := readRecord members standard value

def write (t : Tariff) : String := writeRecord members t

end Tariff

namespace Settings

open Member

def members : List (Member Settings) :=
  [ofBool "isDebug" debug fun s v => { s with debug := v },
   ofWord "maxCallDepth" maxCallDepth fun s v => { s with maxCallDepth := v },
   ⟨"gas", fun value s => (Tariff.read value).map fun t => { s with tariff := t }, fun s => s.tariff.write⟩]

def ofText? (text : String) : Option Settings := do
  let value ← Json.ofText? text
  readRecord members standard value

def toText (s : Settings) : String := writeRecord members s

end Settings
end CallBoundary
