import Mathlib.Data.List.Basic

/-!
Contract: greedy packing of frames into bounded packets.

Owns: a staging buffer that is emitted whenever the next frame would pass the
limit, the guarantee that every emitted packet is non-empty, within the limit
and a concatenation of whole frames, and that no frame is lost.

Does **not** own what a frame is: `encode` and the property of the encoded
values are parameters.
-/

set_option autoImplicit false

namespace KcpTest.Library.Packing

universe u v

variable {α : Type u} {β : Type v}

/-- The packets emitted so far and the frames waiting for the next one. -/
structure Staging (β : Type v) where
  outputs : List (List β)
  buffer : List β

/-- An empty buffer is not emitted. -/
def emit (buffer : List β) : List (List β) := if buffer.length = 0 then [] else [buffer]

def Staging.empty : Staging β := ⟨[], []⟩

/-- Append a frame, emitting the buffer first when the frame does not fit. -/
def Staging.put (limit : Nat) (staging : Staging β) (frame : List β) : Staging β :=
  if staging.buffer.length + frame.length > limit then
    { outputs := staging.outputs ++ emit staging.buffer, buffer := frame }
  else { staging with buffer := staging.buffer ++ frame }

/-- Emit what is left. -/
def Staging.finish (staging : Staging β) : List (List β) :=
  staging.outputs ++ emit staging.buffer

/-- `packet` is a concatenation of whole frames of values with property `P`. -/
def Carries (encode : α → List β) (P : α → Prop) (packet : List β) : Prop :=
  ∃ values : List α, packet = values.flatMap encode ∧ ∀ value ∈ values, P value

theorem Carries.mono {encode : α → List β} {P Q : α → Prop} {packet : List β}
    (carries : Carries encode P packet) (weaken : ∀ value, P value → Q value) :
    Carries encode Q packet := by
  obtain ⟨values, shape, all⟩ := carries
  exact ⟨values, shape, fun value member => weaken value (all value member)⟩

theorem Carries.append_frame {encode : α → List β} {P : α → Prop} {packet : List β}
    (carries : Carries encode P packet) {value : α} (holds : P value) :
    Carries encode P (packet ++ encode value) := by
  obtain ⟨values, rfl, all⟩ := carries
  refine ⟨values ++ [value], by simp, ?_⟩
  intro other member
  rcases List.mem_append.mp member with old | new
  · exact all other old
  · rw [List.mem_singleton.mp new]
    exact holds

/-- What a receiver may assume of an emitted packet. -/
structure Packet (encode : α → List β) (P : α → Prop) (limit : Nat) (packet : List β) :
    Prop where
  nonempty : packet ≠ []
  length_le : packet.length ≤ limit
  carries : Carries encode P packet

theorem Packet.mono {encode : α → List β} {P Q : α → Prop} {limit : Nat} {packet : List β}
    (sound : Packet encode P limit packet) (weaken : ∀ value, P value → Q value) :
    Packet encode Q limit packet :=
  { sound with carries := sound.carries.mono weaken }

/-- The invariant of the staging buffer. -/
structure Staging.Fits (encode : α → List β) (P : α → Prop) (limit : Nat)
    (staging : Staging β) : Prop where
  outputs : ∀ packet ∈ staging.outputs, Packet encode P limit packet
  length_le : staging.buffer.length ≤ limit
  carries : Carries encode P staging.buffer

section Fits

variable {encode : α → List β} {P : α → Prop} {limit : Nat} {staging : Staging β}

theorem Staging.Fits.empty : (Staging.empty : Staging β).Fits encode P limit where
  outputs := by simp [Staging.empty]
  length_le := Nat.zero_le _
  carries := ⟨[], rfl, by simp⟩

theorem Staging.Fits.emitted (fits : staging.Fits encode P limit) :
    ∀ packet ∈ staging.outputs ++ emit staging.buffer, Packet encode P limit packet := by
  intro packet member
  rcases List.mem_append.mp member with old | new
  · exact fits.outputs packet old
  · unfold emit at new
    split at new
    · simp at new
    · rename_i filled
      rw [List.mem_singleton.mp new]
      exact ⟨fun isEmpty => filled (by simp [isEmpty]), fits.length_le, fits.carries⟩

theorem Staging.Fits.put (fits : staging.Fits encode P limit) {value : α} (holds : P value)
    (short : (encode value).length ≤ limit) :
    (staging.put limit (encode value)).Fits encode P limit := by
  unfold Staging.put
  split
  · exact
      { outputs := fits.emitted
        length_le := short
        carries := ⟨[value], by simp, by simpa using holds⟩ }
  · rename_i room
    exact
      { outputs := fits.outputs
        length_le := by simpa using room
        carries := fits.carries.append_frame holds }

theorem Staging.Fits.finish (fits : staging.Fits encode P limit) :
    ∀ packet ∈ staging.finish, Packet encode P limit packet :=
  fits.emitted

end Fits

/-! ### No frame is lost -/

/-- The packets and the buffer are the frames of these values, in order and
whole. -/
def Staging.Packs (encode : α → List β) (staging : Staging β) (values : List α) : Prop :=
  ∃ (groups : List (List α)) (last : List α), values = groups.flatten ++ last ∧
    staging.outputs = groups.map (fun group => group.flatMap encode) ∧
    staging.buffer = last.flatMap encode

section Packs

variable {encode : α → List β} {staging : Staging β} {values : List α}

theorem Staging.Packs.empty : (Staging.empty : Staging β).Packs encode [] :=
  ⟨[], [], rfl, rfl, rfl⟩

/-- Emitting loses nothing, as no frame is empty. -/
theorem Staging.Packs.emitted (packs : staging.Packs encode values)
    (visible : ∀ value, encode value ≠ []) :
    ∃ groups : List (List α), values = groups.flatten ∧
      staging.outputs ++ emit staging.buffer = groups.map fun group => group.flatMap encode := by
  obtain ⟨groups, last, split, outputs, buffer⟩ := packs
  cases last with
  | nil =>
      refine ⟨groups, by simpa using split, ?_⟩
      rw [outputs, buffer]
      simp [emit]
  | cons value last =>
      refine ⟨groups ++ [value :: last], by simpa using split, ?_⟩
      have filled : staging.buffer.length ≠ 0 := by
        have := List.length_pos_iff.mpr (visible value)
        rw [buffer, List.flatMap_cons, List.length_append]
        omega
      rw [emit, if_neg filled, outputs, buffer, List.map_append]
      rfl

theorem Staging.Packs.put (packs : staging.Packs encode values)
    (visible : ∀ value, encode value ≠ []) (limit : Nat) (value : α) :
    (staging.put limit (encode value)).Packs encode (values ++ [value]) := by
  unfold Staging.put
  split
  · obtain ⟨groups, split, outputs⟩ := packs.emitted visible
    exact ⟨groups, [value], by rw [split], outputs, by simp⟩
  · obtain ⟨groups, last, split, outputs, buffer⟩ := packs
    exact ⟨groups, last ++ [value], by rw [split, List.append_assoc], outputs, by simp [buffer]⟩

/-- Every value is carried whole by one of the packets. -/
theorem Staging.Packs.finish (packs : staging.Packs encode values)
    (visible : ∀ value, encode value ≠ []) {value : α} (member : value ∈ values) :
    ∃ packet ∈ staging.finish, ∃ group : List α, packet = group.flatMap encode ∧ value ∈ group := by
  obtain ⟨groups, split, outputs⟩ := packs.emitted visible
  rw [split] at member
  obtain ⟨group, inGroups, inGroup⟩ := List.mem_flatten.mp member
  refine ⟨group.flatMap encode, ?_, group, rfl, inGroup⟩
  show _ ∈ staging.outputs ++ emit staging.buffer
  rw [outputs]
  exact List.mem_map_of_mem inGroups

/-- Every value is carried by a packet of some of the values. -/
theorem Staging.Packs.finish_among (packs : staging.Packs encode values)
    (visible : ∀ value, encode value ≠ []) {value : α} (member : value ∈ values) :
    ∃ packet ∈ staging.finish, ∃ group : List α, packet = group.flatMap encode ∧
      value ∈ group ∧ ∀ other ∈ group, other ∈ values := by
  obtain ⟨groups, split, outputs⟩ := packs.emitted visible
  rw [split] at member ⊢
  obtain ⟨group, inGroups, inGroup⟩ := List.mem_flatten.mp member
  refine ⟨group.flatMap encode, ?_, group, rfl, inGroup, ?_⟩
  · show _ ∈ staging.outputs ++ emit staging.buffer
    rw [outputs]
    exact List.mem_map_of_mem inGroups
  · exact fun other inside => List.mem_flatten.mpr ⟨group, inGroups, inside⟩

end Packs

/-! ### A list of frames -/

/-- The values put one after the other. -/
def Staging.putAll (encode : α → List β) (limit : Nat) (staging : Staging β) (values : List α) :
    Staging β :=
  values.foldl (fun staging value => staging.put limit (encode value)) staging

section PutAll

variable {encode : α → List β} {limit : Nat}

@[simp] theorem Staging.putAll_nil (staging : Staging β) :
    staging.putAll encode limit [] = staging := rfl

@[simp] theorem Staging.putAll_cons (staging : Staging β) (value : α) (values : List α) :
    staging.putAll encode limit (value :: values) =
      (staging.put limit (encode value)).putAll encode limit values := rfl

theorem Staging.putAll_append (staging : Staging β) (front back : List α) :
    staging.putAll encode limit (front ++ back) =
      (staging.putAll encode limit front).putAll encode limit back := by
  simp [Staging.putAll]

theorem Staging.Packs.putAll {staging : Staging β} {values : List α}
    (packs : staging.Packs encode values) (visible : ∀ value, encode value ≠ [])
    (more : List α) :
    (staging.putAll encode limit more).Packs encode (values ++ more) := by
  induction more generalizing staging values with
  | nil => simpa using packs
  | cons value more inductionHypothesis =>
      have step := inductionHypothesis (packs.put visible limit value)
      rw [List.append_assoc] at step
      exact step

theorem Staging.buffer_put_le {bound : Nat} (wide : limit ≤ bound) (staging : Staging β)
    {frame : List β} (fits : frame.length ≤ bound) :
    (staging.put limit frame).buffer.length ≤ bound := by
  unfold Staging.put
  split
  · exact fits
  · rename_i room
    rw [List.length_append]
    omega

theorem Staging.buffer_putAll_le {bound : Nat} (wide : limit ≤ bound) {staging : Staging β}
    (within : staging.buffer.length ≤ bound) {values : List α}
    (fits : ∀ value ∈ values, (encode value).length ≤ bound) :
    (staging.putAll encode limit values).buffer.length ≤ bound := by
  induction values generalizing staging with
  | nil => exact within
  | cons value values inductionHypothesis =>
      apply inductionHypothesis
      · exact Staging.buffer_put_le wide staging (fits value List.mem_cons_self)
      · exact fun other member => fits other (List.mem_cons_of_mem _ member)

/-- The buffer never grows past `bound` exactly when no frame does. -/
theorem Staging.buffer_le_iff {bound : Nat} (wide : limit ≤ bound) (values : List α) :
    (∀ front back, values = front ++ back →
      ((Staging.empty : Staging β).putAll encode limit front).buffer.length ≤ bound) ↔
      ∀ value ∈ values, (encode value).length ≤ bound := by
  constructor
  · intro within value member
    obtain ⟨front, back, rfl⟩ := List.append_of_mem member
    have after := within (front ++ [value]) back (by simp)
    rw [Staging.putAll_append, Staging.putAll_cons, Staging.putAll_nil] at after
    unfold Staging.put at after
    split at after
    · exact after
    · rename_i room
      omega
  · intro fits front back split
    have start : (Staging.empty : Staging β).buffer.length ≤ bound := Nat.zero_le bound
    apply Staging.buffer_putAll_le wide start
    intro value member
    exact fits value (by rw [split]; exact List.mem_append_left _ member)

end PutAll

end KcpTest.Library.Packing
