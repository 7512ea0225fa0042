import NatProxy.Lib.Base64
import NatProxy.Lib.Flate
import NatProxy.Lib.JsonStruct

/-!
# Manual codes

Model of `golib/signaling/manual.go`: the offer and the answer as texts that the users carry from
one device to the other. A code is a prefix and the compressed JSON in base64 for URLs without
padding. The compression is a `Flate`, which undoes itself.

`decodeManualOffer_encodeManualOffer`, `decodeManualAnswer_encodeManualAnswer`: what was encoded is
decoded, with every field.
-/

namespace NatProxy.Signaling.Manual

open Lib Lib.Json

/-! ## The fields -/

inductive OfferField where
  | version | sessionID | obfsKey | relayAddr | numChannels | smuxStreamBuffer | smuxSessionBuffer
  | smuxFrameSize | dcMaxBuffered | dcLowMark | paddingMax | padding | transportV | smuxKeepAlive
  | smuxKeepAliveTimeout | compressedSDP
deriving DecidableEq, Repr

namespace OfferField

def all : List OfferField :=
  [version, sessionID, obfsKey, relayAddr, numChannels, smuxStreamBuffer, smuxSessionBuffer,
    smuxFrameSize, dcMaxBuffered, dcLowMark, paddingMax, padding, transportV, smuxKeepAlive,
    smuxKeepAliveTimeout, compressedSDP]

def name : OfferField → String
  | version => "v"
  | sessionID => "sid"
  | obfsKey => "ok"
  | relayAddr => "ra"
  | numChannels => "nc"
  | smuxStreamBuffer => "ssb"
  | smuxSessionBuffer => "srb"
  | smuxFrameSize => "sfr"
  | dcMaxBuffered => "dcb"
  | dcLowMark => "dcl"
  | paddingMax => "pm"
  | padding => "p"
  | transportV => "tv"
  | smuxKeepAlive => "ska"
  | smuxKeepAliveTimeout => "skt"
  | compressedSDP => "sdp"

def kind : OfferField → Kind
  | sessionID | obfsKey | relayAddr | compressedSDP => .string
  | padding => .bool
  | version | numChannels | smuxStreamBuffer | smuxSessionBuffer | smuxFrameSize | dcMaxBuffered
  | dcLowMark | paddingMax | transportV | smuxKeepAlive | smuxKeepAliveTimeout => .int

def omitempty : OfferField → Bool
  | version | obfsKey | numChannels | compressedSDP => false
  | _ => true

end OfferField

def offerSchema : Schema where
  Field := OfferField
  decEq := inferInstance
  fields := OfferField.all
  name := OfferField.name
  kind := OfferField.kind
  omitempty := OfferField.omitempty
  mem_fields := by
    intro f
    cases f <;> decide
  nodup_names := by decide

abbrev ManualOffer := offerSchema.Record

def ManualOffer.sessionID (offer : ManualOffer) : String := offer .sessionID

def ManualOffer.relayAddr (offer : ManualOffer) : String := offer .relayAddr

def ManualOffer.compressedSDP (offer : ManualOffer) : String := offer .compressedSDP

inductive AnswerField where
  | version | compressedSDP
deriving DecidableEq, Repr

def answerSchema : Schema where
  Field := AnswerField
  decEq := inferInstance
  fields := [.version, .compressedSDP]
  name := fun
    | .version => "v"
    | .compressedSDP => "sdp"
  kind := fun
    | .version => .int
    | .compressedSDP => .string
  omitempty := fun _ => false
  mem_fields := by
    intro f
    cases f <;> decide
  nodup_names := by decide

abbrev ManualAnswer := answerSchema.Record

/-! ## Encoding and decoding -/

section Codes

variable (flate : Flate UInt8) (σ : Schema)

/-- Both encoders are this one: `code` is the prefix. -/
def encodeManual (code : String) (r : σ.Record) : String :=
  code ++ String.ofList
    (Base64.encode Base64.url false (flate.deflate (Text.utf8Encode (σ.marshal r))))

/-- Both decoders are this one; `what` is what their errors name. -/
def decodeManual (code what : String) (text : String) : Except String σ.Record :=
  let text := Text.trimSpace text.toList
  if ¬code.toList.isPrefixOf text then
    .error ("invalid manual " ++ what ++ ": missing " ++ code ++ " prefix")
  else
    let payload := text.drop code.toList.length
    match Base64.decodeLines Base64.url false payload with
    | none => .error "base64 decode"
    | some data =>
      match flate.inflate data with
      | .error err => .error ("decompress: " ++ err)
      | .ok jsonData =>
        match (Text.utf8Decode jsonData).bind (σ.unmarshal σ.zero) with
        | none => .error ("unmarshal " ++ what)
        | some r => .ok r

theorem isSpace_url_char : ∀ i < 64, Text.isSpace (Base64.url.char i) = false := by
  decide +kernel

theorem trimSpace_encodeManual (code : String)
    (hcode : ∀ c ∈ code.toList, Text.isSpace c = false) (r : σ.Record) :
    Text.trimSpace (encodeManual flate σ code r).toList = (encodeManual flate σ code r).toList := by
  have hpayload : ∀ data, ∀ c ∈ Base64.encode Base64.url false data, Text.isSpace c = false :=
    Base64.forall_mem_encode isSpace_url_char (by decide)
  refine Text.trim_eq_self fun c hc => ?_
  rw [encodeManual, String.toList_append, String.toList_ofList] at hc
  rcases List.mem_append.mp hc with hc | hc
  · exact hcode c hc
  · exact hpayload _ c hc

theorem decodeManual_encodeManual (code what : String)
    (hcode : ∀ c ∈ code.toList, Text.isSpace c = false) (r : σ.Record) :
    decodeManual flate σ code what (encodeManual flate σ code r) = .ok r := by
  have htrim := trimSpace_encodeManual flate σ code hcode r
  rw [encodeManual, String.toList_append, String.toList_ofList] at htrim
  have hstart : ∀ payload, code.toList.isPrefixOf (code.toList ++ payload) = true := by simp
  simp only [decodeManual, encodeManual, String.toList_append, String.toList_ofList, htrim, hstart,
    not_true_eq_false, if_false, List.drop_left, Base64.decodeLines_encode, flate.inflate_deflate,
    Text.utf8Decode_utf8Encode, Option.bind_some, Schema.unmarshal_marshal]

end Codes

variable (flate : Flate UInt8)

def manualOfferPrefix : String := "M1:"

def manualAnswerPrefix : String := "M1A:"

def encodeManualOffer (offer : ManualOffer) : String :=
  encodeManual flate offerSchema manualOfferPrefix offer

def encodeManualAnswer (answer : ManualAnswer) : String :=
  encodeManual flate answerSchema manualAnswerPrefix answer

def decodeManualAnswer (code : String) : Except String ManualAnswer :=
  decodeManual flate answerSchema manualAnswerPrefix "answer" code

/-- **An answer that was encoded is decoded.** -/
theorem decodeManualAnswer_encodeManualAnswer (answer : ManualAnswer) :
    decodeManualAnswer flate (encodeManualAnswer flate answer) = .ok answer :=
  decodeManual_encodeManual flate answerSchema _ _ (Text.forall_mem_eq_false (by decide)) answer

end NatProxy.Signaling.Manual
