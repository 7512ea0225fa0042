import NatProxy.Lib.Base64
import NatProxy.Lib.CRLFLines
import NatProxy.Lib.Flate
import Mathlib.Tactic.SplitIfs

/-!
# The compression of an SDP

Model of `golib/signaling/compress.go`. `minifySDP` keeps the lines that start with one of a few
prefixes, and gives back a text without any such line as it is. A string is a list of characters
here, of which the bytes of Go are some; `flate` is any compression of such lists.
`compression` holds for all texts, whatever their lines are.
-/

namespace NatProxy.Signaling.CompressSDP

open Lib Lib.CRLFLines List

def sdpKeepPrefixes : List (List Char) :=
  ["v=", "o=", "s=", "t=", "m=", "c=", "a=ice-ufrag:", "a=ice-pwd:", "a=fingerprint:", "a=setup:",
    "a=mid:", "a=sctp-port:", "a=max-message-size:", "a=candidate:",
    "a=end-of-candidates"].map String.toList

/-- A line that `minifySDP` keeps. -/
def qualifies (line : List Char) : Bool := line != [] && sdpKeepPrefixes.any (·.isPrefixOf line)

def minifySDP (sdp : List Char) : List Char :=
  let kept := (splitLines sdp).filter qualifies
  if kept.length = 0 then sdp else joinLines kept ++ crlf

def compressSDP (flate : Flate Char) (sdp : List Char) : List Char :=
  Base64.encode Base64.url false (flate.deflate (minifySDP sdp))

def decompressSDP (flate : Flate Char) (compressed : List Char) : Except String (List Char) :=
  match Base64.decodeLines Base64.url false compressed with
  | none => .error "base64 decode"
  | some data =>
    match flate.inflate data with
    | .error err => .error ("flate decompress: " ++ err)
    | .ok sdp =>
      if Text.contains "v=".toList sdp then .ok sdp
      else .error "decompressed data does not look like SDP"

theorem minifySDP_eq (sdp : List Char) : minifySDP sdp =
    if (splitLines sdp).filter qualifies = [] then sdp
    else text ((splitLines sdp).filter qualifies) := by
  simp only [minifySDP, length_eq_zero_iff]
  split_ifs with hnone
  · rfl
  · exact joinLines_append_crlf hnone

theorem minifySDP_minifySDP (sdp : List Char) : minifySDP (minifySDP sdp) = minifySDP sdp := by
  rw [minifySDP_eq sdp]
  split_ifs with hnone
  · rw [minifySDP_eq, if_pos hnone]
  · -- the lines of the result are those that were kept, and the empty one at the end
    have hsplit : (splitLines (text ((splitLines sdp).filter qualifies))).filter qualifies =
        (splitLines sdp).filter qualifies := by
      rw [splitLines_text fun line hline =>
        isLine_of_mem_splitLines line (mem_of_mem_filter hline)]
      rw [filter_append, filter_filter]
      simp only [Bool.and_self]
      exact append_nil _
    rw [minifySDP_eq, hsplit, if_neg hnone]

/-- **Compression gives back the qualifying lines**, and minifying is idempotent. -/
theorem compression (flate : Flate Char) (sdp : List Char) :
    (minifySDP sdp = if ∀ line ∈ splitLines sdp, qualifies line = false then sdp
      else text ((splitLines sdp).filter qualifies)) ∧
    minifySDP (minifySDP sdp) = minifySDP sdp ∧
    decompressSDP flate (compressSDP flate sdp) =
      if Text.contains "v=".toList (minifySDP sdp) then .ok (minifySDP sdp)
      else .error "decompressed data does not look like SDP" := by
  refine ⟨?_, minifySDP_minifySDP sdp, ?_⟩
  · rw [minifySDP_eq]
    simp only [filter_eq_nil_iff, Bool.not_eq_true]
  · simp only [decompressSDP, compressSDP, Base64.decodeLines_encode, flate.inflate_deflate]

theorem compression_stored :
    decompressSDP Flate.stored.text
        (compressSDP Flate.stored.text "v=0\r\na=group:BUNDLE 0\r\na=mid:0\r\n".toList) =
      .ok "v=0\r\na=mid:0\r\n".toList := by
  rw [(compression _ _).2.2]
  decide

end NatProxy.Signaling.CompressSDP
