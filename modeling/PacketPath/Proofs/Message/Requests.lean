import PacketPath.Message.Request

/-! What messages ask for. Every request has one message that carries it, and every other message is refused for the
first of three faults: a code without a meaning, nothing to act on, and the wrong kind of attachment. -/

set_option autoImplicit false

namespace PacketPath

variable {code : UInt32} {attachment : Attachment}

def Request.Known (code : UInt32) : Prop :=
  code = inputCode ∨ code = outputCode ∨ code = outputBatchCode

namespace Attachment

/-- A single frame comes as one page, and several come as a batch. -/
def Suits (code : UInt32) : Attachment → Prop
  | .nothing => False
  | .page _ => code = Request.inputCode ∨ code = Request.outputCode
  | .pieces _ => code = Request.outputBatchCode

def Present : Attachment → Prop
  | .nothing => False
  | .page grant => grant.isPresent = true
  | .pieces batch => batch.pieces ≠ [] ∧ ∀ piece ∈ batch.pieces, piece.grant.isPresent = true

instance decidablePresent : (attachment : Attachment) → Decidable attachment.Present
  | .nothing => inferInstanceAs (Decidable False)
  | .page _ => inferInstanceAs (Decidable (_ = true))
  | .pieces _ => inferInstanceAs (Decidable (_ ∧ _))

theorem Suits.known (suits : attachment.Suits code) : Request.Known code := by
  cases attachment with
  | nothing => exact suits.elim
  | page grant => exact suits.imp_right .inl
  | pieces batch => exact .inr (.inr suits)

theorem Suits.ne_nothing (suits : attachment.Suits code) : attachment ≠ .nothing := by
  rintro rfl
  exact suits

end Attachment

namespace Request

theorem batched_of_not_single (known : Known code) (many : ¬ (code = inputCode ∨ code = outputCode)) :
    code = outputBatchCode := by
  rcases known with single | single | batched
  · exact (many (.inl single)).elim
  · exact (many (.inr single)).elim
  · exact batched

theorem decode_batch (batch : Batch) :
    decode outputBatchCode (.pieces batch) =
      if (Attachment.pieces batch).Present then .ok (.outputBatch batch) else .error .missingBuffer := by
  have many : ¬ (outputBatchCode = inputCode ∨ outputBatchCode = outputCode) := by decide
  have faulty : (batch.pieces.isEmpty || batch.pieces.any fun piece => !piece.grant.isPresent) = true ↔
      ¬ (Attachment.pieces batch).Present := by
    simp [Attachment.Present, Decidable.or_iff_not_imp_left]
  simp only [decode, if_neg many, if_true, faulty]
  rw [ite_not]

/-! ### The faults -/

theorem decode_of_unknown (unknown : ¬ Known code) (attachment : Attachment) :
    decode code attachment = .error (.unknownRequest code) := by
  have many : ¬ (code = inputCode ∨ code = outputCode) := fun single => unknown (single.imp_right .inl)
  have few : ¬ code = outputBatchCode := fun batched => unknown (.inr (.inr batched))
  simp only [decode, if_neg many, if_neg few]

theorem decode_nothing (known : Known code) : decode code .nothing = .error .missingBuffer := by
  by_cases single : code = inputCode ∨ code = outputCode
  · simp only [decode, if_pos single]
  · simp only [decode, if_neg single, if_pos (batched_of_not_single known single)]

theorem decode_of_unsuited (known : Known code) (carries : attachment ≠ .nothing)
    (unsuited : ¬ attachment.Suits code) : decode code attachment = .error (.wrongTransfer code) := by
  cases attachment with
  | nothing => exact (carries rfl).elim
  | page grant =>
    have many : ¬ (code = inputCode ∨ code = outputCode) := unsuited
    simp only [decode, if_neg many, if_pos (batched_of_not_single known many)]
  | pieces batch =>
    have single : code = inputCode ∨ code = outputCode :=
      Decidable.byContradiction fun many => unsuited (batched_of_not_single known many)
    simp only [decode, if_pos single]

theorem decode_of_absent (suits : attachment.Suits code) (absent : ¬ attachment.Present) :
    decode code attachment = .error .missingBuffer := by
  cases attachment with
  | nothing => exact suits.elim
  | page grant =>
    have single : code = inputCode ∨ code = outputCode := suits
    have missing : ¬ grant.isPresent = true := absent
    simp only [decode, if_pos single, Packet.ofGrant, dif_neg missing, Except.map]
  | pieces batch =>
    obtain rfl : code = outputBatchCode := suits
    rw [decode_batch, if_neg absent]

/-! ### Requests -/

/-- What is present and of the right kind is a request, and writing the request gives back what it was read from. -/
theorem exists_decode (suits : attachment.Suits code) (present : attachment.Present) :
    ∃ request, decode code attachment = .ok request ∧ request.encode = (code, attachment) := by
  cases attachment with
  | nothing => exact suits.elim
  | page grant =>
    have single : code = inputCode ∨ code = outputCode := suits
    have there : grant.isPresent = true := present
    refine ⟨if code = inputCode then .input ⟨grant, there⟩ else .output ⟨grant, there⟩, ?_, ?_⟩
    · simp only [decode, if_pos single, Packet.ofGrant, dif_pos there, Except.map]
    · split
      case isTrue input => rw [input, encode, Request.code, Request.attachment]
      case isFalse other => rw [single.resolve_left other, encode, Request.code, Request.attachment]
  | pieces batch =>
    obtain rfl : code = outputBatchCode := suits
    refine ⟨.outputBatch batch, ?_, rfl⟩
    rw [decode_batch, if_pos present]

/-- Every pair of a code and an attachment is decided by one of five rules. -/
theorem decode_cases (code : UInt32) (attachment : Attachment) :
    (¬ Known code ∧ decode code attachment = .error (.unknownRequest code)) ∨
    (Known code ∧ attachment = .nothing ∧ decode code attachment = .error .missingBuffer) ∨
    (Known code ∧ attachment ≠ .nothing ∧ ¬ attachment.Suits code ∧
      decode code attachment = .error (.wrongTransfer code)) ∨
    (attachment.Suits code ∧ ¬ attachment.Present ∧ decode code attachment = .error .missingBuffer) ∨
    (attachment.Suits code ∧ attachment.Present ∧
      ∃ request, decode code attachment = .ok request ∧ request.encode = (code, attachment)) := by
  by_cases known : Known code
  case neg => exact .inl ⟨known, decode_of_unknown known attachment⟩
  by_cases none : attachment = .nothing
  case pos => exact .inr (.inl ⟨known, none, none ▸ decode_nothing known⟩)
  by_cases suits : attachment.Suits code
  case neg => exact .inr (.inr (.inl ⟨known, none, suits, decode_of_unsuited known none suits⟩))
  by_cases present : attachment.Present
  case neg => exact .inr (.inr (.inr (.inl ⟨suits, present, decode_of_absent suits present⟩)))
  exact .inr (.inr (.inr (.inr ⟨suits, present, exists_decode suits present⟩)))

end Request

open Request

/-- A message is a request exactly if what it carries is of the kind that its code asks for and present. The request
is written as that code and that attachment and no other, and read back from them. Of the faults, a code without a
meaning comes first; otherwise nothing, or nothing present, of the right kind is a missing page, and anything of the
other kind is the wrong transfer. -/
theorem Message.request_decided (message : Message) :
    ((∃ request, message.request = .ok request) ↔
      message.attachment.Suits message.code ∧ message.attachment.Present) ∧
    (∀ request, message.request = .ok request ↔
      request.encode = (message.code, message.attachment) ∧
        decode request.encode.1 request.encode.2 = .ok request) ∧
    (message.request = .error (.unknownRequest message.code) ↔ ¬ Known message.code) ∧
    (message.request = .error .missingBuffer ↔
      (Known message.code ∧ message.attachment = .nothing) ∨
        (message.attachment.Suits message.code ∧ ¬ message.attachment.Present)) ∧
    (message.request = .error (.wrongTransfer message.code) ↔
      Known message.code ∧ message.attachment ≠ .nothing ∧ ¬ message.attachment.Suits message.code) ∧
    ((∃ request, message.request = .ok request) ∨ message.request = .error (.unknownRequest message.code) ∨
      message.request = .error .missingBuffer ∨ message.request = .error (.wrongTransfer message.code)) := by
  rcases message with ⟨sender, code, attachment⟩
  have back (request : Request) : decode code attachment = .ok request ↔
      request.encode = (code, attachment) ∧ decode request.encode.1 request.encode.2 = .ok request := by
    constructor
    · intro decoded
      rcases decode_cases code attachment with ⟨-, refused⟩ | ⟨-, -, refused⟩ | ⟨-, -, -, refused⟩ |
        ⟨-, -, refused⟩ | ⟨-, -, other, found, encoded⟩
      case inr.inr.inr.inr =>
        obtain rfl : other = request := Except.ok.inj (found.symm.trans decoded)
        rw [encoded]
        exact ⟨rfl, decoded⟩
      all_goals
        rw [decoded] at refused
        cases refused
    · rintro ⟨encoded, decoded⟩
      rwa [encoded] at decoded
  refine and_left_comm.mp ⟨back, ?_⟩
  simp only [Message.request]
  rcases decode_cases code attachment with ⟨unknown, refused⟩ | ⟨known, rfl, refused⟩ |
    ⟨known, carries, unsuited, refused⟩ | ⟨suits, absent, refused⟩ | ⟨suits, present, request, found, -⟩
  case inl =>
    have unsuited : ¬ attachment.Suits code := fun suits => unknown suits.known
    simp [refused, unknown, unsuited]
  case inr.inl => simp [refused, known, Attachment.Suits]
  case inr.inr.inl => simp [refused, known, carries, unsuited]
  case inr.inr.inr.inl => simp [refused, suits, suits.known, absent]
  case inr.inr.inr.inr => simp [found, suits, suits.known, suits.ne_nothing, present]

end PacketPath
