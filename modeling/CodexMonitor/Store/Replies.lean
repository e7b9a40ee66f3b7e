import CodexMonitor.Store.Schema

/-!
# Explicit replies

A reply to a delivered event waits in its source's outbox until the source
acknowledges it.
-/

namespace CodexMonitor

open Transaction

/-- `INSERT INTO replies`. -/
def Db.insertReply? (db : Db) (r : Reply) : Option Db :=
  (db.replies.insert? r).map fun t => { db with replies := t }

def Db.nextReplySeq (db : Db) : Nat := db.replies.nextSeq Reply.seq

/-- The answer of `reply_put`. -/
structure ReplyReceipt where
  replyId : String
  duplicate : Bool
deriving DecidableEq, Repr

/-- Put a reply to an event into its source's outbox, once for each reply key. -/
def replyPut (deliveryId replyKey message : String) (uuid : Uuid) (now : Rat) :
    StoreM ReplyReceipt := do
  validateIdentifier deliveryId "delivery id"
  validateIdentifier replyKey "reply id"
  validateText message "reply message" maxReplyBytes
  withTx do
    let parent ← Tx.query fun db => db.events.find? fun e => e.id = deliveryId
    let e ← Tx.expect (.bail "event not found") parent
    let prior ← Tx.query fun db => db.replies.find? fun r =>
      r.deliveryId = deliveryId ∧ r.replyKey = replyKey
    match prior with
    | some r => do
        bailIf (r.message ≠ message) "reply id already used for different content"
        pure ⟨r.id, true⟩
    | none => do
        let pending ← Tx.query fun db => db.replies.count fun r => r.acknowledged = none
        bailIf (maxReplies ≤ pending) "reply outbox capacity reached"
        insertInto "UNIQUE constraint failed: replies" fun db => db.insertReply?
          ⟨db.nextReplySeq, uuid.text, deliveryId, replyKey, e.source, e.binding, e.eventId,
            message, now, none⟩
        pure ⟨uuid.text, false⟩

/-- `UPDATE replies SET acknowledged=COALESCE(acknowledged,?) WHERE id=? AND source=?`. -/
def Db.acknowledgeReply (db : Db) (source replyId : String) (now : Rat) : Db :=
  { db with
    replies := db.replies.update (fun r => r.id = replyId ∧ r.source = source) fun r =>
      { r with acknowledged := some (r.acknowledged.getD now) } }

/-- Take a reply out of its source's outbox. -/
def replyAck (source replyId : String) (now : Rat) : StoreM Unit := do
  validateIdentifier source "source"
  validateIdentifier replyId "reply id"
  withTx do
    let row ← Tx.query fun db => db.replies.find? fun r => r.id = replyId ∧ r.source = source
    let _ ← Tx.expect (.bail "reply not found") row
    Tx.write fun db => db.acknowledgeReply source replyId now

end CodexMonitor
