import Thalweg.Daemon.Codec
import Thalweg.Daemon.Membership

/-!
# Invitations

An invitation is the JSON record of a membership in base64url. Whatever is read from an invitation
has passed the checks of memberships, and a membership that passes them can be read back.

## Main results

* `decodeNetworkInvitation_encodeNetworkInvitation`: what is read from the invitation of a
  membership.
* `invitation_roundTrip`.
-/

namespace Thalweg

/-- The record of an invitation is read as the membership. -/
theorem decodeRecord_invitation (membership : NetworkMembership) :
    Json.decodeRecord false invitationFields (0, ⟨[], [], []⟩) (Json.renderRecord
      [("version".toList, Text.decimal 1), ("name".toList, Json.quote membership.name),
        ("id".toList, Json.quote membership.id),
        ("secret".toList, Json.quote membership.secret)]) = some (1, membership) := by
  let members : List (Text × Json) := [("version".toList, .num (Text.decimal 1)),
    ("name".toList, .str membership.name), ("id".toList, .str membership.id),
    ("secret".toList, .str membership.secret)]
  have hwell : Json.MembersWellFormed Json.IsNumber members := by
    simp [members, Json.MembersWellFormed, Json.WellFormed, Json.isNumber_decimal]
  have htext : Json.renderRecord [("version".toList, Text.decimal 1),
      ("name".toList, Json.quote membership.name), ("id".toList, Json.quote membership.id),
      ("secret".toList, Json.quote membership.secret)] = Json.render (.obj members) := by
    rw [← Json.renderRecord_map]
    simp only [members, List.map_cons, List.map_nil, Json.render]
  have hversion : Json.decodeInt 0 (.num (Text.decimal 1)) = some 1 := by decide
  rw [htext, Json.decodeRecord_renderRecord _ _ _ (by simp [members]) hwell
    (by simp only [members, Json.membersDepth, Json.depth]; decide)]
  simp [members, Json.rawMembers, Json.setMember, Json.lookupField, invitationFields,
    Json.decodeText, hversion]

/-- An invitation is read as the membership that it was made for, if that passes its checks. -/
theorem decodeNetworkInvitation_encodeNetworkInvitation (membership : NetworkMembership) :
    decodeNetworkInvitation (encodeNetworkInvitation membership) =
      match validateMembership membership with
      | .error e => .error (.wrap "invalid network invitation: %w" [] e)
      | .ok () => .ok membership := by
  have hprefix : ∀ payload, invitationPrefix <+: invitationPrefix ++ payload :=
    fun payload => List.prefix_append _ _
  cases hvalid : validateMembership membership with
  | error e =>
    simp only [decodeNetworkInvitation, hprefix, not_true_eq_false, if_false,
      encodeNetworkInvitation, List.drop_left, Base64Url.decode_encode, Text.ofBytes_toBytes,
      decodeRecord_invitation, ne_eq, hvalid]
  | ok u =>
    simp only [decodeNetworkInvitation, hprefix, not_true_eq_false, if_false,
      encodeNetworkInvitation, List.drop_left, Base64Url.decode_encode, Text.ofBytes_toBytes,
      decodeRecord_invitation, ne_eq, hvalid]

/-- An invitation can only be read as the membership that it was made for. -/
theorem decodeNetworkInvitation_encode {membership membership' : NetworkMembership}
    (h : decodeNetworkInvitation (encodeNetworkInvitation membership) = .ok membership') :
    membership' = membership := by
  rw [decodeNetworkInvitation_encodeNetworkInvitation] at h
  split at h
  · cases h
  · cases h
    rfl

theorem validate_of_decodeNetworkInvitation {invitation : Text} {membership : NetworkMembership}
    (h : decodeNetworkInvitation invitation = .ok membership) :
    validateMembership membership = .ok () := by
  unfold decodeNetworkInvitation at h
  split at h
  · cases h
  split at h
  · cases h
  split at h
  · cases h
  split at h
  · cases h
  split at h
  · cases h
  · next hvalid =>
    cases h
    exact hvalid

/-- **Invitations.** The invitation of a valid membership is read as it, and what any text is read
as is a valid membership whose invitation is read as it. -/
theorem invitation_roundTrip :
    (∀ membership, validateMembership membership = .ok () →
      decodeNetworkInvitation (encodeNetworkInvitation membership) = .ok membership) ∧
    ∀ invitation membership, decodeNetworkInvitation invitation = .ok membership →
      validateMembership membership = .ok () ∧
        decodeNetworkInvitation (encodeNetworkInvitation membership) = .ok membership := by
  have hread : ∀ membership, validateMembership membership = .ok () →
      decodeNetworkInvitation (encodeNetworkInvitation membership) = .ok membership := by
    intro membership hvalid
    rw [decodeNetworkInvitation_encodeNetworkInvitation, hvalid]
  refine ⟨hread, fun invitation membership h => ?_⟩
  have hvalid := validate_of_decodeNetworkInvitation h
  exact ⟨hvalid, hread membership hvalid⟩

end Thalweg
