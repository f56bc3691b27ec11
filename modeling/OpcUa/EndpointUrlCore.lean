import OpcUa.AttributeCore
import OpcUa.Library.DecimalText

/-!
`UA_parseEndpointUrl` in `ua_util.c`, and what a text says that is written as the URL of an
endpoint. A read outside of the text has no result.
-/

namespace OpcUa

open LittleEndian StatusCode

def StatusCode.badTcpEndpointUrlInvalid : StatusCode := 0x80830000

structure EndpointUrl where
  hostname : List Byte
  port : BitVec 16
  path : List Byte
deriving DecidableEq, Repr

def urlScheme : List Byte := [111, 112, 99, 46, 116, 99, 112, 58, 47, 47]

def scanFrom (stop : Byte → Bool) (data : List Byte) : Nat → Nat → Option Nat
  | 0, curr => some curr
  | left + 1, curr => do
    if stop (← data[curr]?) then some curr else scanFrom stop data left (curr + 1)

def bytesFrom (data : List Byte) (curr : Nat) : Option (List Byte) :=
  if curr ≤ data.length then some (data.drop curr) else none

/-- Where the hostname ends. There is no end if the bracket is not closed. -/
def hostEnd (data : List Byte) : Option (Option Nat) := do
  -- An address in brackets may have colons.
  if (← data[10]?) = 91 then
    let curr ← scanFrom (· = 93) data (data.length - 10) 10
    if curr = data.length then some none else some (some (curr + 1))
  else
    let curr ← scanFrom (fun byte => byte = 58 || byte = 47) data (data.length - 10) 10
    some (some curr)

def parseUrlPath (data : List Byte) (curr : Nat) (out : EndpointUrl) :
    Option (StatusCode × EndpointUrl) := do
  if (← data[curr]?) ≠ 47 then some (badTcpEndpointUrlInvalid, out)
  else
    let curr := curr + 1
    if curr = data.length then some (good, out)
    else
      let path ← bytesFrom data curr
      let last ← data[data.length - 1]?
      some (good, { out with path := if last = 47 then path.dropLast else path })

/-- The port is set only if it is followed by a path or by nothing. -/
def parseUrlPort (data : List Byte) (curr : Nat) (out : EndpointUrl) :
    Option (StatusCode × EndpointUrl) :=
  if curr = data.length then some (badTcpEndpointUrlInvalid, out)
  else do
    let (progress, largeNum) := readNumber (← bytesFrom data curr) 0 0
    if progress = 0 ∨ largeNum > 65535 then some (badTcpEndpointUrlInvalid, out)
    else
      let curr := curr + progress
      if curr = data.length then some (good, { out with port := largeNum.setWidth 16 })
      else if (← data[curr]?) = 47 then
        parseUrlPath data curr { out with port := largeNum.setWidth 16 }
      else parseUrlPath data curr out

def parseEndpointUrl (endpointUrl : UaString) (out : EndpointUrl) :
    Option (StatusCode × EndpointUrl) :=
  let data := endpointUrl.bytes
  if data.length < 11 ∨ data.take 10 ≠ urlScheme then some (badTcpEndpointUrlInvalid, out)
  else do
    match ← hostEnd data with
    | none => some (badTcpEndpointUrlInvalid, out)
    | some curr =>
      let out := { out with hostname := (data.drop 10).take (curr - 10) }
      if curr = data.length then some (good, out)
      else if (← data[curr]?) = 58 then parseUrlPort data (curr + 1) out
      else parseUrlPath data curr out

/-! URLs as they are written -/

/-- A literal in brackets up to the first one that closes, or bytes other than `:` and `/`. -/
def HostText (host : List Byte) : Prop :=
  (∃ literal, host = 91 :: (literal ++ [93]) ∧ 93 ∉ literal) ∨
    58 ∉ host ∧ 47 ∉ host ∧ host.head? ≠ some 91

structure UrlText where
  host : List Byte
  port : Option (List Byte)
  path : Option (List Byte)

namespace UrlText

def portText (url : UrlText) : List Byte := url.port.elim [] fun digits => 58 :: digits

def pathText (url : UrlText) : List Byte := url.path.elim [] fun path => 47 :: path

def text (url : UrlText) : List Byte := urlScheme ++ (url.host ++ (url.portText ++ url.pathText))

structure WellFormed (url : UrlText) : Prop where
  more : 10 < url.text.length
  host : HostText url.host
  port : ∀ digits ∈ url.port, DecimalText.Numeral digits

def PortFits (url : UrlText) : Prop := ∀ digits ∈ url.port, DecimalText.value digits ≤ 65535

/-- The port is too great, but what is left of it in a word of 32 bits is not. -/
def PortWraps (url : UrlText) : Prop :=
  ∃ digits ∈ url.port, 65535 < DecimalText.value digits ∧ DecimalText.value digits % 2 ^ 32 ≤ 65535

end UrlText

def withoutSlash (path : List Byte) : List Byte :=
  if path.getLast? = some 47 then path.dropLast else path

def UrlText.parts (url : UrlText) (out : EndpointUrl) : EndpointUrl where
  hostname := url.host
  port := url.port.elim out.port fun digits => BitVec.ofNat 16 (DecimalText.value digits)
  path :=
    match url.path with
    | none => out.path
    | some [] => out.path
    | some path => withoutSlash path

/-- The URLs of endpoints are parsed into their parts, and nothing else is parsed. -/
def ParsedAsUrl (data : List Byte) (out : EndpointUrl) (status : StatusCode)
    (result : EndpointUrl) : Prop :=
  (status = good ↔ ∃ url : UrlText, url.WellFormed ∧ url.PortFits ∧ data = url.text) ∧
    ∀ url : UrlText, url.WellFormed → url.PortFits → data = url.text → result = url.parts out

end OpcUa
