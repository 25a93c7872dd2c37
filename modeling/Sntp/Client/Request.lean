import Sntp.Client.Script
import Sntp.Client.Steps

/-!
# What is sent is what is remembered

The buffer is written by three parties: the codec writes the first 48 bytes, the
authenticator what comes after, and transport reads anything at all. A send call
writes it in that order before its loop, and the loop sends its front as it is,
so every transmission of one call is the same packet: the request header of the
stored request time, followed by what the authenticator wrote.
-/

namespace Sntp

variable {A : Type}

/-- `bytes` starts with the 48 bytes of a request stored as `stored`. -/
structure CarriesRequest (bytes : Buffer) (stored : Timestamp) : Prop where
  leapVersionMode : bytes[0]? = some 0x23
  zeros : ∀ i, 1 ≤ i → i < 40 → bytes[i]? = some 0
  transmit : Bytes.slice bytes 40 48 = some (timestampBytes stored)

/-- A packet whose base is a request header carries the request. -/
theorem carriesRequest_of_take {bytes : Buffer} {stored : Timestamp}
    (h : bytes.take 48 = requestHeader stored) : CarriesRequest bytes stored := by
  have hsplit : bytes = requestHeader stored ++ bytes.drop 48 := by
    rw [← h, List.take_append_drop]
  have hget : ∀ i, i < 48 → bytes[i]? = (requestHeader stored)[i]? := by
    intro i hi
    rw [hsplit, List.getElem?_append_left (by rw [requestHeader_length]; exact hi)]
  refine ⟨?_, ?_, ?_⟩
  · rw [hget 0 (by omega)]
    rfl
  · intro i h₁ h₂
    rw [hget i (by omega)]
    obtain ⟨j, rfl⟩ : ∃ j, i = j + 1 := ⟨i - 1, by omega⟩
    rw [requestHeader, List.getElem?_cons_succ,
      List.getElem?_append_left (by rw [List.length_replicate]; omega),
      List.getElem?_replicate, if_pos (by omega)]
  · rw [hsplit]
    exact requestHeader_transmit stored _

namespace Call

/-- The authenticator of the call left the first 48 bytes of the buffer alone. -/
def SparesPacket (call : Call A) : Prop :=
  ∀ server buffer filled answer, .generateClientAuth server buffer filled answer ∈ call.events →
    filled.take 48 = buffer.take 48

/-- `bytes` ends in what the authenticator of the call wrote after the packet,
which is nothing if it was not asked. -/
def EndsInCode (call : Call A) (bytes : Buffer) : Prop :=
  (∀ server buffer filled answer, .generateClientAuth server buffer filled answer ∈ call.events →
    bytes.drop 48 = (filled.take bytes.length).drop 48) ∧
  ((∀ server buffer filled answer,
    .generateClientAuth server buffer filled answer ∉ call.events) → bytes.length = 48)

end Call

variable [Authenticator A]

/-- A client that is ready to send: its packet carries the request, whatever the
authenticator did after the first 48 bytes. -/
theorem Signs.carries {c c' : Client A} {server : ServerInfo} {address : UInt32}
    {reading : Timestamp} {randomNumber : UInt32} {signing : List Event}
    (h : Signs (c.requested address reading randomNumber) server signing c') (hvalid : c.Valid)
    (hspares : ∀ server buffer filled answer,
      .generateClientAuth server buffer filled answer ∈ signing →
        filled.take 48 = buffer.take 48) :
    c'.lastRequestTime = stamped reading randomNumber ∧
      c'.packet.length = c'.packetSize.toNat ∧
      c'.packet.take 48 = requestHeader (stamped reading randomNumber) := by
  have hready : c'.Valid := h.valid (hvalid.requested address reading randomNumber)
  have hbase : 48 ≤ c'.packetSize.toNat := hready.base
  have htake : c'.packet.take 48 = c'.buffer.take 48 := by
    rw [Client.packet, List.take_take, Nat.min_eq_left hbase]
  have hheader : (c.requested address reading randomNumber).buffer.take 48
      = requestHeader (stamped reading randomNumber) :=
    List.take_left' (requestHeader_length _)
  rw [htake]
  cases h with
  | bare _ => exact ⟨rfl, hready.packet_length, hheader⟩
  | signed _ _ _ =>
    refine ⟨rfl, hready.packet_length, ?_⟩
    rw [← hheader]
    exact hspares _ _ _ _ (List.mem_singleton.mpr rfl)

/-- **What is sent is what is remembered.** All transmissions of one send call
are of one packet, to one place: the address just resolved for the current
server, and that server's port. The packet has `packetSize` bytes; it carries the
request time the client remembers, which is the first clock reading of the call
with the random bits OR-ed in; and it ends in the authenticator's code. -/
theorem sent_is_remembered {c c' : Client A} {call : Call A} {randomNumber blockTimeMs : UInt32}
    (hreach : Reachable c) (hcall : Makes c call c')
    (hop : call.op = .send randomNumber blockTimeMs) (hspares : call.SparesPacket)
    {address : UInt32} {port : UInt16} {bytes : Buffer} {answer : Except NetworkError ℕ}
    (hsent : .sendTo address port bytes answer ∈ call.events) :
    (∀ address' port' bytes' answer', .sendTo address' port' bytes' answer' ∈ call.events →
      address' = address ∧ port' = port ∧ bytes' = bytes) ∧
    (∃ server, c.servers[c.currentServer]? = some server ∧
      .resolveDns server (some address) ∈ call.events ∧ port = server.port) ∧
    bytes.length = c'.packetSize.toNat ∧ CarriesRequest bytes c'.lastRequestTime ∧
    (∃ reading, firstReading call.events = some reading ∧
      c'.lastRequestTime.seconds = reading.seconds ∧
      c'.lastRequestTime.fractions = reading.fractions ||| (randomNumber >>> 16)) ∧
    call.EndsInCode bytes := by
  have hvalid := hreach.valid
  obtain ⟨watch, result, houtcome, htrace⟩ := hcall.sends hvalid hop
  obtain ⟨server, resolved, reading, signing, hserver, hresolved, hreading, hsigns, hsends,
    hcode⟩ := htrace.of_sendTo hsent
  obtain ⟨rfl, rfl, rfl⟩ := hsends _ _ _ _ hsent
  obtain ⟨hrequest, hlength, hheader⟩ := hsigns.carries hvalid
    (fun s b f a hmem => hspares s b f a ((hcode s b f a).mpr hmem))
  refine ⟨hsends, ⟨server, hserver, hresolved, rfl⟩, hlength, ?_,
    ⟨reading, hreading, ?_, ?_⟩, ?_, ?_⟩
  · rw [hrequest]
    exact carriesRequest_of_take hheader
  · rw [hrequest]
    rfl
  · rw [hrequest]
    rfl
  · intro s b f a hmem
    rw [hcode] at hmem
    cases hsigns with
    | bare _ => cases hmem
    | signed _ _ _ =>
      cases List.mem_singleton.mp hmem
      rw [hlength]
      rfl
  · intro hnone
    rw [hlength]
    cases hsigns with
    | bare hbare => exact hvalid.bare hbare
    | signed _ _ _ =>
      exact absurd ((hcode _ _ _ _).mpr (List.mem_singleton.mpr rfl)) (hnone _ _ _ _)

/-- A code of three bytes is sent with the packet, twice, and stored with the
random bits of the request. -/
theorem sent_is_remembered_with_code :
    let call :=
      (perform 2 (.send 0x00070000 100) (twoServers (Keyring.mk [1, 2, 3] [])) sentAt1000).1
    ∃ bytes answer, .sendTo 7 123 bytes answer ∈ call.events ∧ bytes.length = 51 ∧
      bytes.drop 48 = [1, 2, 3] ∧ CarriesRequest bytes ⟨1000, 7⟩ := by
  intro call
  have hmem : .sendTo 7 123 call.after.packet (.ok 0) ∈ call.events :=
    List.mem_of_getElem? (show call.events[4]? = _ from rfl)
  have hspares : call.SparesPacket := by
    intro server buffer filled answer hcode
    obtain ⟨i, hi⟩ := List.mem_iff_getElem?.mp hcode
    match i, hi with
    | 2, h =>
      cases h
      rfl
    | 3, h => cases h
    | 4, h => cases h
    | 5, h => cases h
    | 6, h => cases h
    | n + 7, h => cases h
  obtain ⟨_, _, hlength, hcarries, _, _⟩ := sent_is_remembered
    (twoServers_initial (Keyring.mk [1, 2, 3] [])).reachable (perform_makes 2 _ _ _) rfl hspares
    hmem
  exact ⟨_, _, hmem, hlength, by decide, hcarries⟩

end Sntp
