import TwowCore.Mail.Mail

/-!
# The cap of a mailbox

How the number of mails the receiver has comes into an `AsyncMailSendRequest`, and what
`HandleSendMailCallback` answers. A receiver who is online has the mails of `m_mail`, those deleted since the
last `SaveMails` among them; for another the table is counted. Either number goes through the `uint8` field
`mailsCount`.
-/

namespace TwowCore

/-- `MailState`. -/
inductive MailState where
  | unchanged
  | changed
  | deleted
  | hardDelete
  deriving DecidableEq, Repr

/-- The mails of a receiver: the states of those in `m_mail`, or the `isDeleted` of the rows of `mail` and
whether the query for their number is answered. -/
inductive ReceiverMails where
  | online (mail : List MailState)
  | offline (isDeleted : List Bool) (answered : Bool)
  deriving DecidableEq, Repr

namespace ReceiverMails

/-- The mails that are not deleted. -/
def undeleted : ReceiverMails → ℕ
  | online mail => mail.countP fun state => state == .unchanged || state == .changed
  | offline isDeleted _ => isDeleted.count false

/-- `mailsCount`, as `HandleSendMail` or `AsyncMailSendRequest::Callback` leaves it. -/
def mailsCount : ReceiverMails → UInt8
  | online mail => mail.length.toUInt32.toUInt8
  | offline isDeleted true => (isDeleted.count false).toUInt32.toUInt8
  | offline _ false => 0xFF

/-- The mails that are counted. -/
def counted : ReceiverMails → ℕ
  | online mail => mail.length
  | offline isDeleted true => isDeleted.count false
  | offline _ false => 0xFF

theorem toNat_mailsCount (mails : ReceiverMails) : mails.mailsCount.toNat = mails.counted % 2 ^ 8 := by
  have hword : ∀ n : ℕ, n.toUInt32.toUInt8.toNat = n % 2 ^ 8 := fun n => by
    rw [UInt32.toNat_toUInt8, Nat.toUInt32, UInt32.toNat_ofNat', Nat.mod_mod_of_dvd _ (by decide)]
  match mails with
  | online mail => exact hword _
  | offline isDeleted true => exact hword _
  | offline isDeleted false => rfl

end ReceiverMails

/-- `MailResponseResult`, the ones a sender gets. -/
inductive MailResponseResult where
  | ok
  | equipError
  | notEnoughMoney
  | notYourTeam
  | internalError
  | recipientCapReached
  deriving DecidableEq, Repr

variable {T : ItemTable}

/-- What `HandleSendMailCallback` answers. A mail that `CanMail` stops is answered as if it went. -/
def sendMailResult (pl : Player T) (req : SendRequest) : MailResponseResult :=
  let reqmoney := req.money + 30
  if reqmoney < req.money then .notEnoughMoney
  else if pl.money < reqmoney then .notEnoughMoney
  else if 100 < req.mailsCount then .recipientCapReached
  else if req.teamAllowed = false then .notYourTeam
  else if req.itemGuid ≠ 0 ∧ (pl.mailedItem req).isNone = true then .internalError
  else if req.passesSpamCheck = false then .recipientCapReached
  else if req.canMail = false then .ok
  else if req.scriptAllows = false then .equipError
  else .ok

/-- The request for a receiver with these mails. -/
def SendRequest.to (req : SendRequest) (mails : ReceiverMails) : SendRequest :=
  { req with mailsCount := mails.mailsCount }

/-- The sender has the money and the postage. -/
def SendRequest.Paid (req : SendRequest) (pl : Player T) : Prop :=
  ¬ req.money + 30 < req.money ∧ ¬ pl.money < req.money + 30

/-- The spam check, which has the same answer, is reached and stops the mail. -/
def SendRequest.Spam (req : SendRequest) (pl : Player T) : Prop :=
  req.teamAllowed = true ∧ (req.itemGuid = 0 ∨ (pl.mailedItem req).isSome = true) ∧
    req.passesSpamCheck = false

section Answer

variable {pl : Player T} {req : SendRequest}

/-- What is answered with an error leaves everything as it was. -/
theorem MailWorld.handleSendMailCallback_of_refused {w : MailWorld T} {sender : UInt32} (now delay : ℕ)
    (hfound : w.findPlayer sender = some pl) (h : sendMailResult pl req ≠ .ok) :
    w.handleSendMailCallback sender req now delay = w := by
  unfold sendMailResult at h
  unfold MailWorld.handleSendMailCallback
  rw [hfound]
  simp only at h ⊢
  -- the answer and the handler make the same tests in the same order
  by_cases hoverflow : req.money + 30 < req.money
  · rw [if_pos hoverflow]
  rw [if_neg hoverflow] at h ⊢
  by_cases hpoor : pl.money < req.money + 30
  · rw [if_pos hpoor]
  rw [if_neg hpoor] at h ⊢
  by_cases hfull : 100 < req.mailsCount
  · rw [if_pos hfull]
  rw [if_neg hfull] at h ⊢
  by_cases hteam : req.teamAllowed = false
  · rw [if_pos hteam]
  rw [if_neg hteam] at h ⊢
  by_cases hitem : req.itemGuid ≠ 0 ∧ (pl.mailedItem req).isNone = true
  · rw [if_pos hitem]
  rw [if_neg hitem] at h ⊢
  by_cases hspam : req.passesSpamCheck = false
  · rw [if_pos hspam]
  rw [if_neg hspam] at h ⊢
  by_cases hmail : req.canMail = false
  · rw [if_pos hmail]
  rw [if_neg hmail] at h ⊢
  by_cases hscript : req.scriptAllows = false
  · rw [if_pos hscript]
  · exact absurd (if_neg hscript) h

/-- The cap is answered to who has paid, by the count or by the spam check. -/
theorem sendMailResult_cap_iff : sendMailResult pl req = .recipientCapReached ↔
    req.Paid pl ∧ (100 < req.mailsCount ∨ req.Spam pl) := by
  unfold sendMailResult SendRequest.Paid SendRequest.Spam
  simp only
  by_cases hoverflow : req.money + 30 < req.money
  · simp [hoverflow]
  by_cases hpoor : pl.money < req.money + 30
  · simp [hoverflow, hpoor]
  by_cases hfull : 100 < req.mailsCount
  · simp [hoverflow, hpoor, hfull]
  rw [if_neg hoverflow, if_neg hpoor, if_neg hfull]
  cases hteam : req.teamAllowed with
  | false => simp [hfull]
  | true =>
      by_cases hitem : req.itemGuid ≠ 0 ∧ (pl.mailedItem req).isNone = true
      · have hmissing : pl.mailedItem req = none := Option.isNone_iff_eq_none.mp hitem.2
        simp [hitem.1, hmissing, hfull]
      · have hthere : req.itemGuid = 0 ∨ (pl.mailedItem req).isSome = true := by
          by_cases hguid : req.itemGuid = 0
          · exact Or.inl hguid
          · exact Or.inr (Option.isSome_iff_ne_none.mpr fun hnone => hitem ⟨hguid, by rw [hnone]; rfl⟩)
        rw [if_neg (by simp), if_neg hitem]
        cases hspam : req.passesSpamCheck with
        | false => simp [hoverflow, hpoor, hthere]
        | true =>
            have hanswer : (if req.canMail = false then MailResponseResult.ok
                else if req.scriptAllows = false then .equipError else .ok) ≠ .recipientCapReached := by
              split_ifs <;> simp
            simp [hfull, hanswer]

end Answer

/-- When the cap is answered as it should be: more than a hundred mails, and the count in its byte, or else the
spam check, still stops the mail of who has paid; or no more than a hundred, and the count in its byte, with
the mails deleted but not saved, stops none, nor does the spam check. -/
def SendRequest.CapCounts (req : SendRequest) (pl : Player T) (mails : ReceiverMails) : Prop :=
  if 100 < mails.undeleted then req.Paid pl ∧ (100 < mails.counted % 2 ^ 8 ∨ req.Spam pl)
  else req.Paid pl → mails.counted % 2 ^ 8 ≤ 100 ∧ ¬ req.Spam pl

/-- The mail is refused for the cap just when the receiver has more than a hundred mails, if and only if the
counts are as `CapCounts` has them; and what is refused so leaves everything as it was. -/
theorem sendMailResult_cap_exact (pl : Player T) (req : SendRequest) (mails : ReceiverMails) :
    ((sendMailResult pl (req.to mails) = .recipientCapReached ↔ 100 < mails.undeleted) ↔
      req.CapCounts pl mails) ∧
    ∀ (w : MailWorld T) (sender : UInt32) (now delay : ℕ), w.findPlayer sender = some pl →
      sendMailResult pl (req.to mails) = .recipientCapReached →
        w.handleSendMailCallback sender (req.to mails) now delay = w := by
  refine ⟨?_, fun w sender now delay hfound hfull =>
    MailWorld.handleSendMailCallback_of_refused now delay hfound (by rw [hfull]; decide)⟩
  have hcount : 100 < mails.mailsCount ↔ 100 < mails.counted % 2 ^ 8 := by
    rw [UInt8.lt_iff_toNat_lt, mails.toNat_mailsCount]
    rfl
  have hanswer : sendMailResult pl (req.to mails) = .recipientCapReached ↔
      req.Paid pl ∧ (100 < mails.counted % 2 ^ 8 ∨ req.Spam pl) := by
    rw [sendMailResult_cap_iff, ← hcount]
    rfl
  rw [hanswer, SendRequest.CapCounts]
  split
  · next hfull => exact ⟨fun h => h.mpr hfull, fun h => ⟨fun _ => hfull, fun _ => h⟩⟩
  · next hroom =>
      constructor
      · intro h hpaid
        refine ⟨Nat.le_of_not_lt fun hstored => hroom (h.mp ⟨hpaid, Or.inl hstored⟩), fun hspam => ?_⟩
        exact hroom (h.mp ⟨hpaid, Or.inr hspam⟩)
      · rintro h
        refine ⟨fun ⟨hpaid, hstopped⟩ => ?_, fun hfull => absurd hfull hroom⟩
        obtain ⟨hcounted, hspam⟩ := h hpaid
        exact hstopped.elim (fun hstored => absurd hstored (Nat.not_lt.mpr hcounted)) fun h => absurd h hspam

/-- A mailbox of 256 mails takes one more. -/
theorem sendMailResult_full :
    ¬ (sendMailResult (T := ItemTable.cloth) ⟨1, fun _ => none, 30, 0⟩
        (SendRequest.to ⟨2, 0, 0, 0, 0, true, false, true, true, false, false, true, true, true, false⟩
          (.online (List.replicate 256 .unchanged))) = .recipientCapReached ↔
      100 < (ReceiverMails.online (List.replicate 256 .unchanged)).undeleted) := by
  intro h
  have hfull : 100 < (ReceiverMails.online (List.replicate 256 .unchanged)).undeleted := by
    rw [ReceiverMails.undeleted, List.countP_replicate]
    decide
  obtain ⟨-, hstored | ⟨-, -, hspam⟩⟩ := sendMailResult_cap_iff.mp (h.mpr hfull)
  · have hbyte := (ReceiverMails.online (List.replicate 256 .unchanged)).toNat_mailsCount
    rw [ReceiverMails.counted, List.length_replicate] at hbyte
    have hlt : 100 < (ReceiverMails.online (List.replicate 256 .unchanged)).mailsCount.toNat :=
      UInt8.lt_iff_toNat_lt.mp hstored
    omega
  · exact Bool.noConfusion hspam

end TwowCore
