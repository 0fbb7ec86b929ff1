import EspGnss.Ota.Update

/-! # Which uploads are accepted

The decoding loop reads exactly the 64-digit texts, and `ota_flash_post_handler` queues
exactly the requests whose header decodes and whose body fits the inactive slot.
-/

namespace EspGnss.Ota

open Foundation Nmea OtaCall

/-- `text` is two hexadecimal digits of either case for each byte of the digest. -/
def WritesSha256 (text : List UInt8) (sha256 : Sha256) : Prop :=
  text.length = otaSha256HexLen ∧ ∀ index : Fin otaSha256Len, ∃ high low h l,
    text[index.val * 2]? = some high ∧ text[index.val * 2 + 1]? = some low ∧
    HexValue high h ∧ HexValue low l ∧ sha256.get index = UInt8.ofNat (16 * h + l)

/-- The two characters at an index are hexadecimal digits that write `byte`. -/
def WritesByte (digits : UInt8 × UInt8) (byte : UInt8) : Prop :=
  ∃ h l, HexValue digits.1 h ∧ HexValue digits.2 l ∧ byte = UInt8.ofNat (16 * h + l)

theorem otaSha256ParseByte_eq_some {value output index output'} :
    otaSha256ParseByte value output index = some output' ↔
      ∃ byte, WritesByte (digitsAt value index) byte ∧ output' = output.set index byte index.isLt := by
  unfold otaSha256ParseByte WritesByte hexDigitValue
  constructor
  · intro parsed
    dsimp only at parsed
    split at parsed
    · cases parsed
    · rename_i valid
      exact ⟨_, byteOfDigits_iff.mp ⟨valid, rfl⟩, (Option.some.inj parsed).symm⟩
  · intro written
    obtain ⟨byte, digits, rfl⟩ := written
    obtain ⟨valid, rfl⟩ := byteOfDigits_iff.mpr digits
    exact if_neg valid

theorem parseBytes_sound {value output output'} {indices : List (Fin otaSha256Len)}
    (parsed : indices.foldlM (otaSha256ParseByte value) output = some output') :
    ∀ index, (index ∈ indices → WritesByte (digitsAt value index) (output'.get index)) ∧
      (index ∉ indices → output'.get index = output.get index) := by
  induction indices generalizing output with
  | nil =>
      cases parsed
      exact fun index => ⟨fun member => absurd member List.not_mem_nil, fun _ => rfl⟩
  | cons first rest ih =>
      rw [List.foldlM_cons] at parsed
      obtain ⟨next, one, more⟩ := Option.bind_eq_some_iff.mp parsed
      obtain ⟨byte, writes, rfl⟩ := otaSha256ParseByte_eq_some.mp one
      intro index
      obtain ⟨inside, outside⟩ := ih more index
      refine ⟨?_, ?_⟩
      · intro member
        by_cases later : index ∈ rest
        · exact inside later
        · obtain rfl | later' := List.mem_cons.mp member
          · have set : (output.set index byte index.isLt).get index = byte :=
              Vector.getElem_set_self index.isLt
            rw [outside later, set]
            exact writes
          · exact absurd later' later
      · intro apart
        obtain ⟨differs, later⟩ := not_or.mp (mt List.mem_cons.mpr apart)
        rw [outside later]
        exact Vector.getElem_set_ne _ _ fun same => differs (Fin.ext same.symm)

theorem parseBytes_complete {value output} {indices : List (Fin otaSha256Len)}
    (writes : ∀ index ∈ indices, ∃ byte, WritesByte (digitsAt value index) byte) :
    ∃ output', indices.foldlM (otaSha256ParseByte value) output = some output' := by
  induction indices generalizing output with
  | nil => exact ⟨output, rfl⟩
  | cons first rest ih =>
      obtain ⟨byte, here⟩ := writes first List.mem_cons_self
      obtain ⟨output', later⟩ :=
        @ih (output.set first byte) fun index member => writes index (.tail _ member)
      refine ⟨output', ?_⟩
      rw [List.foldlM_cons, otaSha256ParseByte_eq_some.mpr ⟨byte, here, rfl⟩]
      exact later

theorem WritesByte.unique {digits byte byte'} (left : WritesByte digits byte)
    (right : WritesByte digits byte') : byte = byte' := by
  obtain ⟨h, l, high, low, rfl⟩ := left
  obtain ⟨h', l', high', low', rfl⟩ := right
  rw [high.unique high', low.unique low']

theorem otaSha256Parse_eq_some {value sha256} :
    otaSha256Parse value = some sha256 ↔
      ∀ index, WritesByte (digitsAt value index) (sha256.get index) := by
  constructor
  · intro parsed index
    exact (parseBytes_sound parsed index).1 (List.mem_finRange index)
  · intro writes
    obtain ⟨output, parsed⟩ := @parseBytes_complete value (.replicate _ 0) (List.finRange otaSha256Len)
      fun index _ => ⟨_, writes index⟩
    refine parsed.trans (congrArg some (Vector.ext ?_))
    intro index bound
    have read := (parseBytes_sound parsed ⟨index, bound⟩).1 (List.mem_finRange _)
    exact read.unique (writes ⟨index, bound⟩)

theorem digitsAt_eq {value : Vector UInt8 (otaSha256HexLen + 1)} {text}
    (read : value.toList.take otaSha256HexLen = text) (index : Fin otaSha256Len) :
    text[index.val * 2]? = some (digitsAt value index).1 ∧
      text[index.val * 2 + 1]? = some (digitsAt value index).2 := by
  have bound : index.val * 2 + 1 < otaSha256HexLen := by
    have := index.isLt
    simp only [otaSha256HexLen, otaSha256Len] at *
    omega
  subst read
  unfold digitsAt
  rw [List.getElem?_take_of_lt (by omega), List.getElem?_take_of_lt bound]
  constructor <;> simp

/-- The decoding loop reads the digests that the header can write. -/
theorem otaSha256Parse_iff {value : Vector UInt8 (otaSha256HexLen + 1)} {text sha256}
    (read : value.toList.take otaSha256HexLen = text) :
    otaSha256Parse value = some sha256 ↔ WritesSha256 text sha256 := by
  have length : text.length = otaSha256HexLen := by
    rw [← read, List.length_take, Vector.length_toList]
    rfl
  rw [otaSha256Parse_eq_some]
  constructor
  · intro writes
    refine ⟨length, ?_⟩
    intro index
    obtain ⟨h, l, high, low, byte⟩ := writes index
    obtain ⟨first, second⟩ := digitsAt_eq read index
    exact ⟨_, _, h, l, first, second, high, low, byte⟩
  · rintro ⟨-, writes⟩ index
    obtain ⟨high, low, h, l, first, second, highValue, lowValue, byte⟩ := writes index
    obtain ⟨first', second'⟩ := digitsAt_eq read index
    cases first.symm.trans first'
    cases second.symm.trans second'
    exact ⟨h, l, highValue, lowValue, byte⟩

/-- The server hands out the header as the client sent it. -/
def HeaderReplied (req : HttpdReq) : OtaEvent → Prop
  | ⟨reqGetHdrValueLen _, length⟩ => length = (req.firmwareSha256.getD []).length
  | ⟨reqGetHdrValueStr _, header⟩ => header.err = espOk → ∀ text, req.firmwareSha256 = some text →
      text.length = otaSha256HexLen → header.value.toList.take otaSha256HexLen = text
  | _ => True

/-- The header has been read and decoded. -/
def Decoded (history : List OtaEvent) (sha256 : Sha256) : Prop :=
  ∃ header, ⟨reqGetHdrValueLen otaSha256Header, otaSha256HexLen⟩ ∈ history ∧
    ⟨reqGetHdrValueStr otaSha256Header, header⟩ ∈ history ∧ header.err = espOk ∧
    otaSha256Parse header.value = some sha256

/-- A reply because of which `ota_flash_post_handler` turns a request down. -/
def Refuses (req : HttpdReq) : OtaEvent → Prop
  | ⟨restartScheduledGet, scheduled⟩ => scheduled = true
  | ⟨confirmationPendingGet, pending⟩ => pending = true
  | ⟨reqGetHdrValueStr _, header⟩ => header.err ≠ espOk
  | ⟨otaGetNextUpdatePartition, updatePartition⟩ =>
      ∀ partition, updatePartition = some partition → partition.size < req.contentLen
  | ⟨workerReadyTake, taken⟩ => taken = false
  | ⟨asyncHandlerBegin _, err⟩ => err ≠ espOk
  | ⟨requestQueueSend _, sent⟩ => sent = false
  | _ => False

/-- The request was queued, or something was wrong with it, or it was refused. -/
def Handled (req : HttpdReq) (history : List OtaEvent) : Prop :=
  (∃ asyncReq, ⟨requestQueueSend asyncReq, true⟩ ∈ history) ∨
  req.contentLen = 0 ∨
  (∃ length, ⟨reqGetHdrValueLen otaSha256Header, length⟩ ∈ history ∧ length ≠ otaSha256HexLen) ∨
  (∃ header, ⟨reqGetHdrValueStr otaSha256Header, header⟩ ∈ history ∧
    otaSha256Parse header.value = none) ∨
  ∃ event ∈ history, Refuses req event

theorem Handled.of_refused {req history} (event : OtaEvent) (member : event ∈ history)
    (refused : Refuses req event) : Handled req history :=
  .inr (.inr (.inr (.inr ⟨event, member, refused⟩)))

theorem Decoded.append {history more sha256} (decoded : Decoded history sha256) :
    Decoded (history ++ more) sha256 := by
  obtain ⟨header, length, value, ok, parsed⟩ := decoded
  exact ⟨header, List.mem_append_left _ length, List.mem_append_left _ value, ok, parsed⟩

end EspGnss.Ota
