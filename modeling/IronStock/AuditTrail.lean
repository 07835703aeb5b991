import IronStock.AuditWriter
import IronStock.Lib.RunTallies

/-!
# The audit trail of the mutating handlers

A mutating handler changes rows and then hands one entry to the writer, whose
error it drops; `BatchImport` does so for each element of the batch. The rows a
request changes are named by the resource id of its entries. The trail is exact
for a request when each of them is named by exactly one new row of `audit_log`.
That takes a resource type the table's CHECK lists, a caller with a row, header
and detail texts the columns take, and a connection that neither loses a reply
to a statement it sends again nor drops both statements.
-/
namespace IronStock.Audit

open RetriedAppend

/-! ## The handlers -/

/-- The handlers that change items, shares, folders, groups, tags, users, API
tokens, client certificates, notification channels and log-forwarding
configurations. -/
inductive Handler
  | itemCreate
  | itemUpdate
  | itemDelete
  | recordRotation
  | createLink
  | deleteLink
  | batchImport
  | toggleApprovalRequired
  | share
  | unshare
  | shareGroup
  | unshareGroup
  | createShareLink
  | revokeShareLink
  | folderCreate
  | folderUpdate
  | folderDelete
  | grantPermission
  | revokePermission
  | grantFolderGroupPermission
  | revokeFolderGroupPermission
  | createGroup
  | deleteGroup
  | addGroupMember
  | removeGroupMember
  | updateGroupRole
  | createTag
  | deleteTag
  | addItemTag
  | removeItemTag
  | addFavorite
  | removeFavorite
  | disableUser
  | enableUser
  | grantRole
  | revokeRole
  | createUser
  | adminResetTOTP
  | setTOTPRequired
  | setBreakGlass (enabled : Bool)
  | setWebAuthnRequired
  | setIPRestrictions
  | setCertRequired
  | createAPIToken
  | deleteAPIToken
  | uploadCA
  | deleteCA
  | issueCert
  | registerCert
  | revokeCert
  | addExternalChannel
  | deleteExternalChannel
  | testExternalChannel
  | createConfig
  | updateConfig
  | deleteConfig
deriving DecidableEq

namespace Handler

/-- The `Action` of the handler's entry. -/
def action : Handler → String
  | itemCreate => "item.created"
  | itemUpdate => "item.updated"
  | itemDelete => "item.deleted"
  | recordRotation => "item.rotation_recorded"
  | createLink => "item.link_created"
  | deleteLink => "item.link_removed"
  | batchImport => "item.imported"
  | toggleApprovalRequired => "item.approval_toggled"
  | share => "item.shared"
  | unshare => "item.unshared"
  | shareGroup => "item.group_shared"
  | unshareGroup => "item.group_unshared"
  | createShareLink => "item.share_link_created"
  | revokeShareLink => "item.share_link_revoked"
  | folderCreate => "folder.created"
  | folderUpdate => "folder.updated"
  | folderDelete => "folder.deleted"
  | grantPermission | grantFolderGroupPermission => "folder.permission_granted"
  | revokePermission | revokeFolderGroupPermission => "folder.permission_revoked"
  | createGroup => "group.created"
  | deleteGroup => "group.deleted"
  | addGroupMember => "group.member_added"
  | removeGroupMember => "group.member_removed"
  | updateGroupRole => "group.role_updated"
  | createTag => "tag.created"
  | deleteTag => "tag.deleted"
  | addItemTag => "item.tagged"
  | removeItemTag => "item.untagged"
  | addFavorite => "item.favorited"
  | removeFavorite => "item.unfavorited"
  | disableUser => "admin.user_disabled"
  -- `CreateUser` has no constant of its own yet
  | enableUser | createUser => "admin.user_enabled"
  | grantRole => "admin.role_granted"
  | revokeRole => "admin.role_revoked"
  | adminResetTOTP => "admin.totp_reset"
  | setTOTPRequired => "admin.totp_requirement_changed"
  | setBreakGlass true => "admin.break_glass_enabled"
  | setBreakGlass false => "admin.break_glass_disabled"
  | setWebAuthnRequired => "admin.webauthn_requirement_changed"
  | setIPRestrictions => "admin.ip_restrictions_updated"
  | setCertRequired => "admin.client_cert_requirement_changed"
  | createAPIToken => "api_token.created"
  | deleteAPIToken => "api_token.revoked"
  | uploadCA => "admin.client_cert_ca_registered"
  | deleteCA => "admin.client_cert_ca_deleted"
  | issueCert => "admin.client_cert_issued"
  | registerCert => "admin.client_cert_registered"
  | revokeCert => "admin.client_cert_revoked"
  | addExternalChannel => "notification.channel_added"
  | deleteExternalChannel => "notification.channel_removed"
  | testExternalChannel => "notification.channel_test_sent"
  | createConfig => "admin.log_forwarding_created"
  | updateConfig => "admin.log_forwarding_updated"
  | deleteConfig => "admin.log_forwarding_deleted"

/-- The `ResourceType` of the handler's entry. -/
def resourceType : Handler → String
  | itemCreate | itemUpdate | itemDelete | recordRotation | createLink | deleteLink
  | batchImport | toggleApprovalRequired => "item"
  | share | unshare | shareGroup | unshareGroup | createShareLink | revokeShareLink => "item"
  | addItemTag | removeItemTag | addFavorite | removeFavorite => "item"
  | folderCreate | folderUpdate | folderDelete | grantPermission | revokePermission
  | grantFolderGroupPermission | revokeFolderGroupPermission => "folder"
  | createGroup | deleteGroup | addGroupMember | removeGroupMember | updateGroupRole => "group"
  | createTag | deleteTag => "tag"
  | disableUser | enableUser | grantRole | revokeRole | createUser | adminResetTOTP
  | setTOTPRequired | setBreakGlass _ | setWebAuthnRequired | setIPRestrictions
  | setCertRequired => "user"
  | createAPIToken | deleteAPIToken => "api_token"
  | uploadCA | deleteCA => "client_cert_ca"
  | issueCert | registerCert | revokeCert => "client_certificate"
  | addExternalChannel | deleteExternalChannel | testExternalChannel => "notification_channel"
  | createConfig | updateConfig | deleteConfig => "log_forwarding_config"

/-- A literal is measured as the list it stands for, which is cheap to check. -/
theorem length_ofList_bounds (l : List Char) (h : 1 ≤ l.length ∧ l.length ≤ 128) :
    1 ≤ (String.ofList l).length ∧ (String.ofList l).length ≤ 128 := by
  rwa [String.length_ofList]

/-- Every action passes `audit_log_action_chk`. -/
theorem action_length (h : Handler) : 1 ≤ h.action.length ∧ h.action.length ≤ 128 := by
  cases h with
  | setBreakGlass enabled => cases enabled <;> exact length_ofList_bounds _ (by decide)
  | _ => exact length_ofList_bounds _ (by decide)

theorem resourceType_ne (h : Handler) : h.resourceType ≠ "" := by
  cases h <;> simp [resourceType]

/-- A row with the handler's action and type, naming this resource. -/
def names (h : Handler) (resource : Uuid) (row : AuditRow) : Bool :=
  row.action = h.action ∧ row.resourceType = some h.resourceType ∧ row.resourceId = some resource

end Handler

/-! ## Requests -/

/-- The modelled tables, and those the model of the database leaves out. -/
abbrev Site (τ : Type*) := DB × τ

/-- One change of a request: the row it names, what it does to the tables, and
whether the handler goes on to the writer. No handler writes `audit_log` in
any other way. -/
structure Step (τ : Type*) where
  resourceID : String
  resource : Uuid
  cast : castUuid resourceID = some resource
  change : Site τ → Site τ
  keepsLog : ∀ s, (change s).1.auditLog = s.1.auditLog
  audited : Site τ → Bool
  details : List (String × Detail)
  link : Link

/-- A request that is answered with success. -/
structure Request (τ : Type*) where
  handler : Handler
  subject : Uuid
  ipAddress : Option Addr
  userAgent : Bytes
  steps : List (Step τ)

namespace Request

variable {τ : Type*} (r : Request τ)

def entry (st : Step τ) : Entry where
  actorUserID := r.subject.text
  action := r.handler.action
  resourceType := r.handler.resourceType
  resourceID := st.resourceID
  details := st.details
  ipAddress := r.ipAddress
  userAgent := r.userAgent

def serveStep (s : Site τ) (st : Step τ) : Site τ :=
  let s' := st.change s
  if st.audited s then ((write s'.1 (r.entry st) st.link).db, s'.2) else s'

/-- The tables after the request. -/
def serve (s : Site τ) : Site τ := Runs.run r.serveStep s r.steps

/-- No step of the request changes anything under this name. -/
def Leaves (s : Site τ) (resource : Uuid) : Prop :=
  Runs.Every r.serveStep (fun s st => st.resource = resource → st.change s = s) s r.steps

/-- For each resource the request changes, exactly one row that names it with
the handler's action and type is new. -/
def Exact (s : Site τ) : Prop :=
  ∀ resource, ¬ r.Leaves s resource →
    ∃ new, (r.serve s).1.auditLog = s.1.auditLog ++ new ∧
      new.countP (r.handler.names resource) = 1

/-! ## When a step is recorded -/

/-- The INSERT of the entry is accepted: the CHECK lists the type, the caller
has a row, and the texts of the request fit their columns. -/
def Accepted (db : DB) (st : Step τ) : Prop :=
  r.handler.resourceType ∈ auditResourceTypes ∧ (db.user? r.subject).isSome = true ∧
    (r.entry st).isTyped = true

instance (db : DB) (st : Step τ) : Decidable (r.Accepted db st) :=
  inferInstanceAs (Decidable (_ ∧ _))

/-- The handler goes on to the writer, whose statement is accepted and takes
effect once. -/
def Recorded (s : Site τ) (st : Step τ) : Prop :=
  st.audited s = true ∧ r.Accepted (st.change s).1 st ∧ st.link.Once

/-- The handler does not go on to the writer, or its statement is refused or
never takes effect. -/
def Unrecorded (s : Site τ) (st : Step τ) : Prop :=
  st.audited s = false ∨ ¬ r.Accepted (st.change s).1 st ∨ st.link.Never

/-- Of the steps on each resource the request changes, one is recorded and the
others are not. -/
def RecordedOnce (s : Site τ) : Prop :=
  ∀ resource, ¬ r.Leaves s resource →
    Runs.ExactlyOne r.serveStep (fun s st => st.resource = resource ∧ r.Recorded s st)
      (fun s st => st.resource = resource → r.Unrecorded s st) s r.steps

/-! ## What a step adds to the log -/

/-- The row the entry of a step becomes. -/
def row (st : Step τ) : AuditRow :=
  ⟨some r.subject, r.handler.action, some r.handler.resourceType, some st.resource⟩

variable {r}

theorem castNullableUuid_eq {text : String} {u : Uuid} (h : castUuid text = some u) :
    castNullableUuid text = some (some u) := by
  have hne : text ≠ "" := by
    rintro rfl
    simp at h
  simp [castNullableUuid, hne, h]

theorem entry_row (db : DB) (st : Step τ) :
    (r.entry st).row db = if r.Accepted db st then some (r.row st) else none := by
  have hactor := castNullableUuid_eq (castUuid_text r.subject)
  have hresource := castNullableUuid_eq st.cast
  have hcolumns : (r.entry st).columns.row db =
      if (db.user? r.subject).isSome = true ∧ r.handler.resourceType ∈ auditResourceTypes then
        some (r.row st)
      else none := by
    simp [AuditEntry.row, Entry.columns, entry, row, hactor, hresource,
      r.handler.resourceType_ne, r.handler.action_length]
  rw [Entry.row, hcolumns]
  by_cases hacc : r.Accepted db st
  · obtain ⟨htype, hcaller, htyped⟩ := hacc
    rw [if_pos htyped, if_pos ⟨hcaller, htype⟩, if_pos ⟨htype, hcaller, htyped⟩]
  · rw [if_neg hacc]
    split
    · next htyped => exact if_neg fun h => hacc ⟨h.2, h.1, htyped⟩
    · rfl

theorem names_row (st : Step τ) (resource : Uuid) :
    r.handler.names resource (r.row st) = decide (st.resource = resource) := by
  simp [Handler.names, row]

/-- How many rows a step adds under a name. -/
def weight (r : Request τ) (resource : Uuid) (s : Site τ) (st : Step τ) : Nat :=
  if st.resource = resource ∧ st.audited s = true ∧ r.Accepted (st.change s).1 st then
    st.link.copies
  else 0

/-- A step adds rows of its entry to the log and nothing else. -/
theorem serveStep_log (r : Request τ) (resource : Uuid) (s : Site τ) (st : Step τ) :
    ∃ new, (r.serveStep s st).1.auditLog = s.1.auditLog ++ new ∧
      new.countP (r.handler.names resource) = r.weight resource s st := by
  cases haudit : st.audited s with
  | false => exact ⟨[], by simp [serveStep, haudit, st.keepsLog, weight]⟩
  | true =>
    refine ⟨((r.entry st).row (st.change s).1).elim [] (List.replicate st.link.copies), ?_, ?_⟩
    · simp [serveStep, haudit, write_db, st.keepsLog]
    · rw [entry_row]
      by_cases hacc : r.Accepted (st.change s).1 st
      · simp [hacc, weight, haudit, List.countP_replicate, names_row]
      · simp [hacc, weight]

theorem weight_eq_one_iff (resource : Uuid) (s : Site τ) (st : Step τ) :
    r.weight resource s st = 1 ↔ st.resource = resource ∧ r.Recorded s st := by
  unfold weight Recorded
  rw [← Link.copies_eq_one_iff]
  split
  · next h => simp [h.1, h.2.1, h.2.2]
  · next h =>
    constructor
    · intro hzero
      omega
    · rintro ⟨hres, haudit, hacc, -⟩
      exact absurd ⟨hres, haudit, hacc⟩ h

theorem weight_eq_zero_iff (resource : Uuid) (s : Site τ) (st : Step τ) :
    r.weight resource s st = 0 ↔ (st.resource = resource → r.Unrecorded s st) := by
  unfold weight Unrecorded
  rw [← Link.copies_eq_zero_iff]
  by_cases hres : st.resource = resource
  · by_cases haudit : st.audited s = true
    · by_cases hacc : r.Accepted (st.change s).1 st
      · simp [hres, haudit, hacc]
      · simp [hacc]
    · simp [haudit]
  · simp [hres]

/-- The trail is exact for a request exactly when of the steps on each resource
it changes one is recorded and the others are not. -/
theorem exact_iff (r : Request τ) (s : Site τ) : r.Exact s ↔ r.RecordedOnce s := by
  refine forall_congr' fun resource => imp_congr_right fun _ => ?_
  have hone := @Runs.tally_eq_one_iff _ _ r.serveStep _ _ _ (weight_eq_one_iff (r := r) resource)
    (weight_eq_zero_iff resource) s r.steps
  obtain ⟨new, hlog, hcount⟩ :=
    @Runs.exists_append_countP _ _ _ _ (fun s : Site τ => s.1.auditLog) _ _
      (serveStep_log r resource) s r.steps
  rw [← hone, ← hcount]
  constructor
  · rintro ⟨new', hlog', hcount'⟩
    have : new' = new := List.append_cancel_left (hlog'.symm.trans hlog)
    rwa [this] at hcount'
  · exact fun h => ⟨new, hlog, h⟩

/-- A request of one step. -/
theorem exact_single_iff {r : Request τ} {s : Site τ} {st : Step τ} (h : r.steps = [st]) :
    r.Exact s ↔ (st.change s ≠ s → r.Recorded s st) := by
  rw [exact_iff]
  unfold RecordedOnce Leaves
  simp only [h, Runs.every_cons, Runs.every_nil, Runs.exactlyOne_cons, Runs.exactlyOne_nil,
    and_true, and_false, or_false]
  constructor
  · intro hall hchange
    exact (hall st.resource fun hleaves => hchange (hleaves rfl)).2
  · intro hrec resource hleaves
    rw [Classical.not_imp] at hleaves
    exact ⟨hleaves.1, hrec hleaves.2⟩

end Request

end IronStock.Audit
