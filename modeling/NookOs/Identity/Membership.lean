/-
Module: NookOs.Identity.Membership
Purpose: Whether memberships follow the person and agree with the users' roles,
  over every interleaving of the identity calls.
Trusted boundary: none
Main exports: Rows.Even, Rows.Fits, Agree, Rightful, membership_strays, membership_follows
-/
import NookOs.Identity.Pairing

namespace NookOs.Identity

open Lib

section Law

abbrev State := Service.State Rows Request
  (fun request : Statement => Except ApiError request.Value) (Except ApiError Answer)

abbrev Move := Service.Move Choice Confirmed Request

/-- The second writes that running calls make next. -/
def pending (state : State) : List Mate := state.running.filterMap fun call => mateOf call.program

def Mate.seat : Mate → TenantId × UserId
  | .update tenant user _ | .grant tenant user _ => (tenant, user)

namespace Rows

/-- Two users are one person. -/
def SamePerson (rows : Rows) (user seat : UserId) : Prop :=
  ∃ me ∈ rows.user user, ∃ row ∈ rows.user seat, row.personId = me.personId

/-- The role of a seat's membership is that of its user, and a seat that
administers has a membership. -/
def Settled (rows : Rows) (tenant : TenantId) (user : UserId) : Prop :=
  ∀ row ∈ rows.userIn tenant user,
    (∀ role ∈ rows.membershipRole tenant user, row.role = role) ∧
    (row.role.administers = true → (rows.membershipRole tenant user).isSome = true)

/-- What the statements may meet.  A write and its mate run both or neither,
unless there is nothing for them to change; a second write finds the first as it
was made, and a grant finds the role that it grants; who is removed does not
administer, nor who is registered; a seat is found by its own person's email;
and no permission is asked for between two mates. -/
def Fits (lower : String → String) (rows : Rows) (mates : List Mate) (choice : Choice) :
    Statement → Prop
  | .updateMemberRole _ tenant user role => choice.outcome = .lost →
      ∀ row ∈ rows.userIn tenant user, row.role = role
  | .updateUserRole tenant user role =>
      if choice.outcome = .fails then rows.Settled tenant user
      else rows.membershipRole tenant user = some role ∨
        rows.membershipRole tenant user = none ∧ role.administers = false
  | .grantMembership _ tenant user role =>
      if choice.outcome = .fails then rows.Settled tenant user
      else rows.membershipRole tenant user = none →
        ∀ row ∈ rows.userIn tenant user, row.role = role
  | .deleteMembership _ tenant user => choice.outcome ≠ .fails →
      ∀ row ∈ rows.userIn tenant user, row.role.administers = false
  | .createMemberUser _ _ _ role _ => choice.outcome = .lost → role.administers = false
  | .createOidcUser new => choice.outcome = .lost → new.role.administers = false
  | .createLocalUser new granted =>
      choice.outcome = .lost ∨ granted = false ∧ choice.outcome = .runs →
        new.role.administers = false
  | .userIdByEmailCi (some account) tenant email =>
      ∀ row ∈ limitOne choice.pick (rows.usersByEmailCi lower tenant email),
        rows.SamePerson account row.id
  | .hasPermission user _ (some tenant) =>
      ∀ seat ∈ rows.seatsOf user tenant, ∀ mate ∈ mates, mate.seat ≠ (tenant, seat.id)
  | _ => True

end Rows

/-- The conditions of a step; a call is dropped between two mates only where
there is nothing left to change. -/
def Fit (lower : String → String) (state : State) : Move → Prop
  | .goOn index choice =>
      match state.running[index]? with
      | some ⟨_, _, .statement request _⟩ =>
          state.store.Fits lower (pending state) choice request
      | _ => True
  | .crash index =>
      ∀ call ∈ state.running[index]?, ∀ mate ∈ mateOf call.program,
        state.store.Settled mate.seat.1 mate.seat.2
  | _ => True

/-- Where both rows exist, the role of a membership is that of its user. -/
def Agree (rows : Rows) : Prop :=
  ∀ member ∈ rows.members, ∀ user ∈ rows.users,
    user.id = member.principalId → user.tenantId = member.tenantId → user.role = member.role

/-- Who accepts an invite grants a membership to a row of the same person only,
and the implied permission is held by a person with a membership that
administers. -/
def Rightful (permissions : List String) (state : State) : Move → Prop
  | .goOn index choice =>
      match state.running[index]? with
      | some ⟨.manage (.accept user _ _), _, .statement (.grantMembership _ _ seat _) _⟩ =>
          choice.outcome ≠ .fails → state.store.SamePerson user seat
      | some ⟨_, _, .statement (.hasPermission user permission (some tenant)) _⟩ =>
          state.store.impliedPermission permissions user permission (some tenant) = true →
            ∃ seat ∈ state.store.seatsOf user tenant,
              ∃ role ∈ state.store.membershipRole tenant seat.id, role.administers = true
      | _ => True
  | _ => True

end Law

section Users

variable {rows after : Rows} {tenant place : TenantId} {user other : UserId} {role : Role}
  {row found : UserRow}

namespace Rows

theorem userIn_eq_some_iff :
    rows.userIn tenant user = some row ↔ rows.user user = some row ∧ row.tenantId = tenant := by
  rw [userIn, Option.filter_eq_some_iff, decide_eq_true_eq]

theorem userIn_setUserRole :
    (rows.setUserRole tenant user role).userIn place other =
      if (place, other) = (tenant, user) then
        (rows.userIn place other).map fun row => { row with role := role }
      else rows.userIn place other := by
  have changed := @Table.find_map _ _ _ UserRow.id rows.users other
    (fun row => if (row.tenantId, row.id) = (tenant, user) then { row with role := role }
      else row) fun row => by split <;> rfl
  simp only [userIn, Rows.user, setUserRole, Table.update, changed]
  cases found : Table.find UserRow.id rows.users other with
  | none => split <;> rfl
  | some row =>
      obtain ⟨-, rfl⟩ := Table.find_some found
      simp only [Option.map_some, Option.filter_some, Prod.mk.injEq]
      grind

/-- A user that is inserted has a new identifier, which no membership has. -/
theorem insertUser_cases (inserted : rows.insertUser row = some after) :
    after = { rows with users := rows.users ++ [row] } ∧ rows.user row.id = none ∧
      ∀ tenant, rows.membershipRole tenant row.id = none := by
  simp only [insertUser] at inserted
  split at inserted
  case isTrue => cases inserted
  case isFalse absent =>
    cases inserted
    simp only [Bool.or_eq_true, not_or, Bool.not_eq_true, Option.isSome_eq_false_iff,
      Option.isNone_iff_eq_none, List.any_eq_false, decide_eq_true_eq] at absent
    refine ⟨rfl, absent.1, ?_⟩
    intro tenant
    simp only [membershipRole, member, Option.map_eq_none_iff, Table.find_none_iff]
    intro seat isSeat same
    exact absent.2 seat isSeat (congrArg Prod.snd same)

theorem user_inserted (inserted : rows.insertUser row = some after) :
    after.user row.id = some row := by
  obtain ⟨rfl, fresh, -⟩ := insertUser_cases inserted
  have found : Table.find UserRow.id (rows.users ++ [row]) row.id =
      (rows.user row.id).or (if row.id = row.id then some row else none) := Table.find_insert
  rw [fresh, Option.none_or, if_pos rfl] at found
  exact found

end Rows

end Users

section Evenness

/-- Memberships and users agree, but for the writes whose mates are pending. -/
structure Rows.Even (rows : Rows) (mates : List Mate) : Prop where
  users : Table.Keyed UserRow.id rows.users
  homes : ∀ row ∈ rows.users, (rows.tenant row.tenantId).isSome = true
  agree : ∀ tenant user role row, rows.membershipRole tenant user = some role →
    rows.userIn tenant user = some row → row.role = role ∨
      ∃ other, .update tenant user other ∈ mates
  seated : ∀ tenant user row, rows.userIn tenant user = some row → row.role.administers = true →
    (rows.membershipRole tenant user).isSome = true ∨ ∃ role, .grant tenant user role ∈ mates

variable {rows after : Rows} {mates others : List Mate} {tenant : TenantId} {user : UserId}
  {role : Role}

namespace Rows.Even

/-- Rows whose users are settled are even with nothing pending. -/
theorem of_settled (users : Table.Keyed UserRow.id rows.users)
    (homes : ∀ row ∈ rows.users, (rows.tenant row.tenantId).isSome = true)
    (settled : ∀ row ∈ rows.users, rows.Settled row.tenantId row.id) : rows.Even [] where
  users := users
  homes := homes
  agree := by
    intro tenant user role row hasRole isRow
    obtain ⟨isUser, rfl⟩ := userIn_eq_some_iff.mp isRow
    obtain ⟨member, rfl⟩ := Table.find_some isUser
    exact .inl ((settled row member row isRow).1 role hasRole)
  seated := by
    intro tenant user row isRow administers
    obtain ⟨isUser, rfl⟩ := userIn_eq_some_iff.mp isRow
    obtain ⟨member, rfl⟩ := Table.find_some isUser
    exact .inl ((settled row member row isRow).2 administers)

/-- What the writes leave alone stays even. -/
theorem frame (even : rows.Even mates) (users : after.users = rows.users)
    (members : after.members = rows.members)
    (tenants : ∀ tenant, (rows.tenant tenant).isSome = true →
      (after.tenant tenant).isSome = true)
    (keeps : ∀ mate ∈ mates, mate ∈ others) : after.Even others where
  users := users ▸ even.users
  homes := by
    rw [users]
    exact fun row member => tenants _ (even.homes row member)
  agree := by
    simp only [Rows.membershipRole, Rows.member, Rows.userIn, Rows.user, members, users]
    intro tenant user role row hasRole isRow
    refine (even.agree tenant user role row hasRole isRow).imp_right ?_
    rintro ⟨other, awaited⟩
    exact ⟨other, keeps _ awaited⟩
  seated := by
    simp only [Rows.membershipRole, Rows.member, Rows.userIn, Rows.user, members, users]
    intro tenant user row isRow administers
    refine (even.seated tenant user row isRow administers).imp_right ?_
    rintro ⟨role, awaited⟩
    exact ⟨role, keeps _ awaited⟩

/-- Where a seat is settled its mates are no longer needed. -/
theorem drop (even : rows.Even mates) {gone : Mate}
    (settled : rows.Settled gone.seat.1 gone.seat.2)
    (keeps : ∀ mate ∈ mates, mate = gone ∨ mate ∈ others) : rows.Even others where
  users := even.users
  homes := even.homes
  agree := by
    intro tenant user role row hasRole isRow
    rcases even.agree tenant user role row hasRole isRow with same | ⟨other, awaited⟩
    · exact .inl same
    · rcases keeps _ awaited with rfl | kept
      · exact .inl ((settled row isRow).1 role hasRole)
      · exact .inr ⟨other, kept⟩
  seated := by
    intro tenant user row isRow administers
    rcases even.seated tenant user row isRow administers with seated | ⟨role, awaited⟩
    · exact .inl seated
    · rcases keeps _ awaited with rfl | kept
      · exact .inl ((settled row isRow).2 administers)
      · exact .inr ⟨role, kept⟩

/-- The role of a membership changes, and that of its user is to follow or is the
same already. -/
theorem setMemberRole (even : rows.Even mates) (keeps : ∀ mate ∈ mates, mate ∈ others)
    (follows : .update tenant user role ∈ others ∨
      ∀ row ∈ rows.userIn tenant user, row.role = role) :
    (rows.setMemberRole tenant user role).Even others where
  users := even.users
  homes := even.homes
  agree := by
    intro place other given row hasRole isRow
    rw [membershipRole_setMemberRole] at hasRole
    split at hasRole
    case isTrue same =>
      cases same
      obtain ⟨old, -, rfl⟩ := Option.map_eq_some_iff.mp hasRole
      rcases follows with awaited | same
      · exact .inr ⟨role, awaited⟩
      · exact .inl (same row isRow)
    case isFalse =>
      refine (even.agree place other given row hasRole isRow).imp_right ?_
      rintro ⟨last, awaited⟩
      exact ⟨last, keeps _ awaited⟩
  seated := by
    intro place other row isRow administers
    have seated := even.seated place other row isRow administers
    rw [membershipRole_setMemberRole]
    have still : (if (place, other) = (tenant, user) then
        (rows.membershipRole place other).map fun _ => role
        else rows.membershipRole place other).isSome =
          (rows.membershipRole place other).isSome := by
      split
      case isTrue => exact Option.isSome_map
      case isFalse => rfl
    rw [still]
    refine seated.imp_right ?_
    rintro ⟨last, awaited⟩
    exact ⟨last, keeps _ awaited⟩

/-- The role of a user follows the membership as it stands. -/
theorem setUserRole (even : rows.Even mates)
    (keeps : ∀ mate ∈ mates, mate = .update tenant user role ∨ mate ∈ others)
    (stands : rows.membershipRole tenant user = some role ∨
      rows.membershipRole tenant user = none ∧ role.administers = false) :
    (rows.setUserRole tenant user role).Even others where
  users := by
    have same : (rows.setUserRole tenant user role).users.map UserRow.id =
        rows.users.map UserRow.id := by
      simp only [Rows.setUserRole, Table.update, List.map_map]
      refine List.map_congr_left fun row _ => ?_
      simp only [Function.comp_apply]
      split <;> rfl
    unfold Table.Keyed
    rw [same]
    exact even.users
  homes := by
    intro row member
    obtain ⟨old, isOld, rfl⟩ := List.mem_map.mp member
    have home := even.homes old isOld
    dsimp only
    split <;> exact home
  agree := by
    intro place other given row hasRole isRow
    change rows.membershipRole place other = some given at hasRole
    rw [userIn_setUserRole] at isRow
    split at isRow
    case isTrue same =>
      cases same
      obtain ⟨old, -, rfl⟩ := Option.map_eq_some_iff.mp isRow
      rcases stands with isRole | ⟨absent, -⟩
      · exact .inl (Option.some.inj (isRole.symm.trans hasRole))
      · rw [absent] at hasRole
        cases hasRole
    case isFalse differs =>
      rcases even.agree place other given row hasRole isRow with same | ⟨last, awaited⟩
      · exact .inl same
      · rcases keeps _ awaited with same | kept
        · cases same
          exact absurd rfl differs
        · exact .inr ⟨last, kept⟩
  seated := by
    intro place other row isRow administers
    change (rows.membershipRole place other).isSome = true ∨ _
    rw [userIn_setUserRole] at isRow
    split at isRow
    case isTrue same =>
      cases same
      obtain ⟨old, -, rfl⟩ := Option.map_eq_some_iff.mp isRow
      rcases stands with isRole | ⟨-, powerless⟩
      · exact .inl (isRole ▸ rfl)
      · rw [powerless] at administers
        cases administers
    case isFalse =>
      rcases even.seated place other row isRow administers with seated | ⟨last, awaited⟩
      · exact .inl seated
      · rcases keeps _ awaited with same | kept
        · cases same
        · exact .inr ⟨last, kept⟩

/-- A membership is granted with the role that its user has. -/
theorem grant (even : rows.Even mates)
    (keeps : ∀ mate ∈ mates, mate = .grant tenant user role ∨ mate ∈ others)
    (suits : rows.membershipRole tenant user = none →
      ∀ row ∈ rows.userIn tenant user, row.role = role) :
    (rows.grant ⟨tenant, user, role⟩).Even others := by
  have users : (rows.grant ⟨tenant, user, role⟩).users = rows.users := by
    unfold Rows.grant
    split <;> rfl
  have tenants : (rows.grant ⟨tenant, user, role⟩).tenants = rows.tenants := by
    unfold Rows.grant
    split <;> rfl
  refine ⟨users ▸ even.users, ?_, ?_, ?_⟩
  · rw [users]
    simp only [Rows.tenant, tenants]
    exact even.homes
  · intro place other given row hasRole isRow
    simp only [Rows.userIn, Rows.user, users] at isRow
    rw [membershipRole_grant] at hasRole
    cases before : rows.membershipRole place other with
    | some old =>
        rw [before] at hasRole
        cases hasRole
        rcases even.agree place other given row before isRow with same | ⟨last, awaited⟩
        · exact .inl same
        · rcases keeps _ awaited with same | kept
          · cases same
          · exact .inr ⟨last, kept⟩
    | none =>
        rw [before, Option.none_or] at hasRole
        split at hasRole
        case isTrue same =>
          cases same
          cases hasRole
          exact .inl (suits before row isRow)
        case isFalse => cases hasRole
  · intro place other row isRow administers
    simp only [Rows.userIn, Rows.user, users] at isRow
    rw [membershipRole_grant]
    rcases even.seated place other row isRow administers with seated | ⟨last, awaited⟩
    · rw [Option.isSome_or, seated]
      exact .inl rfl
    · rcases keeps _ awaited with same | kept
      · cases same
        rw [Option.isSome_or, if_pos rfl]
        exact .inl (Bool.or_true _)
      · exact .inr ⟨last, kept⟩

/-- Who is removed did not administer. -/
theorem removeMember (even : rows.Even mates) (keeps : ∀ mate ∈ mates, mate ∈ others)
    (powerless : ∀ row ∈ rows.userIn tenant user, row.role.administers = false) :
    (rows.removeMember tenant user).Even others where
  users := even.users
  homes := even.homes
  agree := by
    intro place other given row hasRole isRow
    rw [membershipRole_removeMember] at hasRole
    split at hasRole
    case isTrue => cases hasRole
    case isFalse =>
      refine (even.agree place other given row hasRole isRow).imp_right ?_
      rintro ⟨last, awaited⟩
      exact ⟨last, keeps _ awaited⟩
  seated := by
    intro place other row isRow administers
    rw [membershipRole_removeMember]
    split
    case isTrue same =>
      cases same
      rw [powerless row isRow] at administers
      cases administers
    case isFalse =>
      refine (even.seated place other row isRow administers).imp_right ?_
      rintro ⟨last, awaited⟩
      exact ⟨last, keeps _ awaited⟩

/-- A new user does not administer, or is to be granted a membership. -/
theorem insertUser {row : UserRow} (even : rows.Even mates)
    (inserted : rows.insertUser row = some after)
    (home : (rows.tenant row.tenantId).isSome = true) (keeps : ∀ mate ∈ mates, mate ∈ others)
    (follows : .grant row.tenantId row.id row.role ∈ others ∨ row.role.administers = false) :
    after.Even others := by
  obtain ⟨rfl, fresh, vacant⟩ := insertUser_cases inserted
  have found (id : UserId) : Table.find UserRow.id (rows.users ++ [row]) id =
      (rows.user id).or (if row.id = id then some row else none) := Table.find_insert
  -- Who is found afterwards was there before, or is the new one.
  have origin {place : TenantId} {other : UserId} {seat : UserRow}
      (isSeat : ({ rows with users := rows.users ++ [row] } : Rows).userIn place other =
        some seat) : rows.userIn place other = some seat ∨
          (seat = row ∧ row.tenantId = place ∧ row.id = other) := by
    obtain ⟨isUser, here⟩ := userIn_eq_some_iff.mp isSeat
    rw [Rows.user, found] at isUser
    rcases Option.or_eq_some_iff.mp isUser with before | ⟨-, isNew⟩
    · exact .inl (userIn_eq_some_iff.mpr ⟨before, here⟩)
    · split at isNew
      case isTrue same =>
        cases isNew
        exact .inr ⟨rfl, here, same⟩
      case isFalse => cases isNew
  refine ⟨even.users.insert fresh, ?_, ?_, ?_⟩
  · intro seat member
    rcases List.mem_append.mp member with before | isNew
    · exact even.homes seat before
    · rw [List.mem_singleton.mp isNew]
      exact home
  · intro place other given seat hasRole isSeat
    rcases origin isSeat with before | ⟨rfl, rfl, rfl⟩
    · refine (even.agree place other given seat hasRole before).imp_right ?_
      rintro ⟨last, awaited⟩
      exact ⟨last, keeps _ awaited⟩
    · change rows.membershipRole seat.tenantId seat.id = some given at hasRole
      rw [vacant] at hasRole
      cases hasRole
  · intro place other seat isSeat administers
    rcases origin isSeat with before | ⟨rfl, rfl, rfl⟩
    · refine (even.seated place other seat before administers).imp_right ?_
      rintro ⟨last, awaited⟩
      exact ⟨last, keeps _ awaited⟩
    · rcases follows with awaited | powerless
      · exact .inr ⟨seat.role, awaited⟩
      · rw [powerless] at administers
        cases administers

variable {deployment : Deployment} {choice : Choice} {request : Statement}
  {reply : Except ApiError request.Value}

/-- A second write that fails leaves the rows even where they were settled. -/
theorem fail (even : rows.Even mates)
    (fits : rows.Fits deployment.lower mates choice request) (fails : choice.outcome = .fails)
    (keeps : ∀ mate ∈ mates, request.mate = some mate ∨ mate ∈ others) : rows.Even others := by
  have single (absent : request.mate = none) : rows.Even others := by
    apply even.frame rfl rfl fun _ => id
    intro mate member
    rw [absent] at keeps
    exact (keeps mate member).resolve_left nofun
  cases request with
  | updateUserRole place other given =>
      simp only [Fits, fails, if_true] at fits
      apply @drop rows mates others even (.update place other given) fits
      intro mate member
      exact (keeps mate member).imp_left fun same => (Option.some.inj same).symm
  | grantMembership account place other given =>
      simp only [Fits, fails, if_true] at fits
      apply @drop rows mates others even (.grant place other given) fits
      intro mate member
      exact (keeps mate member).imp_left fun same => (Option.some.inj same).symm
  | _ => exact single rfl

section Answers

variable {place : TenantId} {other : UserId} {given : Role}

/-- A grant that runs.  Nobody is a user of a tenant that is not there. -/
theorem answer_grantMembership (even : rows.Even mates) {account : Option UserId}
    {told : Except ApiError Unit}
    (ran : rows.answer deployment choice (.grantMembership account place other given) =
      some (after, told))
    (fits : rows.membershipRole place other = none →
      ∀ row ∈ rows.userIn place other, row.role = given)
    (keeps : ∀ mate ∈ mates, mate = .grant place other given ∨ mate ∈ others) :
    after.Even others := by
  simp only [Rows.answer] at ran
  split at ran
  case isTrue =>
    cases ran
    exact even.grant keeps fits
  case isFalse missing =>
    cases ran
    apply @drop rows mates _ even (.grant place other given) _ keeps
    intro row isRow
    obtain ⟨isUser, rfl⟩ := userIn_eq_some_iff.mp isRow
    exact absurd (even.homes row (Table.find_some isUser).1) missing

theorem answer_createMemberUser (even : rows.Even mates)
    (alone : ∀ mate ∈ mates, mate ∈ others) {displayName email : String}
    {person : PersonId} {told : Except ApiError UserId}
    (ran : rows.answer deployment choice
      (.createMemberUser place displayName email given person) = some (after, told))
    (follows : ∀ user, told = .ok user →
      .grant place user given ∈ others ∨ given.administers = false) : after.Even others := by
  simp only [Rows.answer] at ran
  split at ran
  case isTrue =>
    cases ran
    exact even.frame rfl rfl (fun _ => id) alone
  case isFalse free =>
    obtain ⟨made, inserted, same⟩ := Option.map_eq_some_iff.mp ran
    cases same
    rw [Bool.or_eq_true, not_or, Option.isNone_iff_eq_none] at free
    exact even.insertUser inserted (Option.isSome_iff_ne_none.mpr free.2) alone
      (follows _ rfl)

theorem answer_createLocalUser (even : rows.Even mates)
    (alone : ∀ mate ∈ mates, mate ∈ others) {new : NewLocalUser} {granted : Bool}
    {told : Except ApiError (Statement.createLocalUser new granted).Value}
    (ran : rows.answer deployment choice (.createLocalUser new granted) = some (after, told))
    (follows : ∀ user : UserRow, told = .ok (.ok user) →
      .grant new.tenant user.id new.role ∈ others ∨ new.role.administers = false) :
    after.Even others := by
  simp only [Rows.answer] at ran
  split at ran
  case isTrue =>
    cases ran
    exact even.frame rfl rfl (fun _ => id) alone
  case isFalse home =>
    rw [Option.isNone_iff_eq_none, ← ne_eq, ← Option.isSome_iff_ne_none] at home
    split at ran
    case isTrue =>
      cases ran
      exact even.frame rfl rfl (fun _ => id) alone
    case isFalse =>
      split at ran
      case isTrue =>
        cases ran
        exact even.frame rfl rfl (fun _ => id) alone
      case isFalse =>
        split at ran
        case isFalse => cases ran
        case isTrue =>
          obtain ⟨made, inserted, same⟩ := Option.map_eq_some_iff.mp ran
          cases same
          exact even.insertUser inserted home alone (follows _ rfl)

theorem answer_createOidcUser (even : rows.Even mates)
    (alone : ∀ mate ∈ mates, mate ∈ others) {new : NewOidcUser}
    {told : Except ApiError (Statement.createOidcUser new).Value}
    (ran : rows.answer deployment choice (.createOidcUser new) = some (after, told))
    (follows : ∀ user : UserRow, told = .ok user →
      .grant new.tenant user.id new.role ∈ others ∨ new.role.administers = false) :
    after.Even others := by
  simp only [Rows.answer] at ran
  split at ran
  case isTrue =>
    cases ran
    exact even.frame rfl rfl (fun _ => id) alone
  case isFalse free =>
    split at ran
    case isFalse => cases ran
    case isTrue =>
      obtain ⟨made, inserted, same⟩ := Option.map_eq_some_iff.mp ran
      cases same
      rw [Bool.or_eq_true, not_or, Option.isNone_iff_eq_none] at free
      exact even.insertUser inserted (Option.isSome_iff_ne_none.mpr free.2) alone
        (follows _ rfl)

end Answers

/-- A statement that runs, where it fits, keeps the rows even. -/
theorem answer (even : rows.Even mates)
    (fits : rows.Fits deployment.lower mates choice request)
    {told : Except ApiError request.Value}
    (ran : rows.answer deployment choice request = some (after, told))
    (effect : choice.outcome ≠ .fails)
    (keeps : ∀ mate ∈ mates, request.mate = some mate ∨ mate ∈ others)
    (adds : choice.outcome = .runs → ∀ value mate, told = .ok value →
      request.awaits value = some mate → mate ∈ others) : after.Even others := by
  have alone (absent : request.mate = none) : ∀ mate ∈ mates, mate ∈ others := by
    intro mate member
    rw [absent] at keeps
    exact (keeps mate member).resolve_left nofun
  -- What a first write awaits is pending, or its answer was lost.
  have follows {value : request.Value} {mate : Mate} (isTold : told = .ok value)
      (awaits : request.awaits value = some mate) :
      mate ∈ others ∨ choice.outcome = .lost := by
    cases outcome : choice.outcome with
    | runs => exact .inl (adds outcome value mate isTold awaits)
    | fails => exact absurd outcome effect
    | lost => exact .inr rfl
  cases request with
  | updateMemberRole caller place other given =>
      cases ran
      exact even.setMemberRole (alone rfl) ((follows rfl rfl).imp_right fits)
  | updateUserRole place other given =>
      cases ran
      simp only [Fits, effect, if_false] at fits
      apply even.setUserRole _ fits
      intro mate member
      exact (keeps mate member).imp_left fun same => (Option.some.inj same).symm
  | grantMembership account place other given =>
      simp only [Fits, effect, if_false] at fits
      apply even.answer_grantMembership ran fits
      intro mate member
      exact (keeps mate member).imp_left fun same => (Option.some.inj same).symm
  | deleteMembership caller place other =>
      cases ran
      exact even.removeMember (alone rfl) (fits effect)
  | createMemberUser place displayName email given person =>
      apply even.answer_createMemberUser (alone rfl) ran
      exact fun user isTold => (follows isTold rfl).imp_right fits
  | createLocalUser new granted =>
      apply even.answer_createLocalUser (alone rfl) ran
      intro user isTold
      cases granted with
      | true =>
          have awaited := @follows (.ok user) (.grant new.tenant user.id new.role) isTold rfl
          exact awaited.imp_right fun lost => fits (.inl lost)
      | false =>
          refine .inr (fits ?_)
          cases outcome : choice.outcome with
          | runs => exact .inr ⟨rfl, rfl⟩
          | fails => exact absurd outcome effect
          | lost => exact .inl rfl
  | createOidcUser new =>
      apply even.answer_createOidcUser (alone rfl) ran
      intro user isTold
      exact (@follows user (.grant new.tenant user.id new.role) isTold rfl).imp_right fits
  | _ =>
      exact even.frame (answer_users ran rfl) (answer_members ran rfl)
        (fun _ => answer_tenant ran) (alone rfl)

/-- A statement that fits keeps the rows even, however it goes. -/
theorem execute (even : rows.Even mates)
    (fits : rows.Fits deployment.lower mates choice request)
    (executed : rows.execute deployment choice request = some (after, reply))
    (keeps : ∀ mate ∈ mates, request.mate = some mate ∨ mate ∈ others)
    (adds : ∀ value mate, reply = .ok value → request.awaits value = some mate →
      mate ∈ others) : after.Even others := by
  rcases execute_cases executed with ⟨effect, told, ran, goes⟩ | ⟨fails, rfl, -⟩
  · apply even.answer fits ran effect keeps
    intro runs value mate isTold awaits
    rcases goes with ⟨-, rfl⟩ | ⟨lost, -⟩
    · exact adds value mate isTold awaits
    · rw [runs] at lost
      cases lost
  · exact even.fail fits fails keeps

/-- A confirmed address changes no user and no membership. -/
theorem confirm (even : rows.Even mates) {event : Confirmed}
    (confirmed : rows.markLocalEmailVerified event = some after) : after.Even mates := by
  unfold Rows.markLocalEmailVerified at confirmed
  split at confirmed
  case isTrue => cases confirmed
  case isFalse =>
    cases confirmed
    exact even.frame rfl rfl (fun _ => id) fun _ => id

end Rows.Even

end Evenness

section Runs

variable {deployment : Deployment} {before after : State} {move : Move}

/-- The rows are even but for the second writes of the calls in flight, each of
which comes next in its call. -/
structure Sound (state : State) : Prop where
  follows : ∀ call ∈ state.running, Follows call.caller.serves call.program
  even : state.store.Even (pending state)

theorem mem_pending {state : State} {mate : Mate} :
    mate ∈ pending state ↔ ∃ call ∈ state.running, mateOf call.program = some mate :=
  List.mem_filterMap

/-- What was pending without the call that stands at an index. -/
theorem mem_pending_eraseIdx {state : State} {mate : Mate} (index : Nat)
    (member : mate ∈ pending state) :
    (∃ call ∈ state.running[index]?, mateOf call.program = some mate) ∨
      mate ∈ (state.running.eraseIdx index).filterMap fun call => mateOf call.program := by
  obtain ⟨call, isCall, comes⟩ := mem_pending.mp member
  obtain ⟨place, here⟩ := List.mem_iff_getElem?.mp isCall
  by_cases same : place = index
  · subst same
    exact .inl ⟨call, here, comes⟩
  · exact .inr (List.mem_filterMap.mpr
      ⟨call, List.mem_eraseIdx_iff_getElem?.mpr ⟨place, same, here⟩, comes⟩)

/-- What was pending when the call at an index goes on. -/
theorem mem_pending_set {state : State} {mate : Mate} (index : Nat)
    {moved : Service.Call Request (fun request : Statement => Except ApiError request.Value)
      (Except ApiError Answer)} (member : mate ∈ pending state) :
    (∃ call ∈ state.running[index]?, mateOf call.program = some mate) ∨
      mate ∈ (state.running.set index moved).filterMap fun call => mateOf call.program := by
  obtain ⟨call, isCall, comes⟩ := mem_pending.mp member
  obtain ⟨place, here⟩ := List.mem_iff_getElem?.mp isCall
  by_cases same : place = index
  · subst same
    exact .inl ⟨call, here, comes⟩
  · refine .inr (List.mem_filterMap.mpr ⟨call, List.mem_iff_getElem?.mpr ⟨place, ?_⟩, comes⟩)
    rw [List.getElem?_set_ne (Ne.symm same)]
    exact here

/-- A call that goes on leaves the rows even. -/
theorem Sound.goOn (sound : Sound before) {index : Nat} {choice : Choice}
    (taken : (identity deployment).step before (.goOn index choice) = some after)
    (fit : Fit deployment.lower before (.goOn index choice)) : Sound after := by
  rcases (identity deployment).resume_cases taken with
    ⟨caller, past, value, present, rfl⟩ |
    ⟨caller, past, request, next, rows, reply, present, ran, rfl⟩
  · constructor
    · exact fun call member => sound.follows call (List.mem_of_mem_eraseIdx member)
    · apply sound.even.frame rfl rfl fun _ => id
      intro mate member
      rcases mem_pending_eraseIdx index member with ⟨call, here, comes⟩ | stays
      · rw [present] at here
        cases here
        cases comes
      · exact stays
  · obtain ⟨serving, mates, rest⟩ := sound.follows _ (List.mem_of_getElem? present)
    simp only [Fit, present] at fit
    constructor
    · intro call member
      rcases List.mem_or_eq_of_mem_set member with other | rfl
      · exact sound.follows call other
      · exact rest reply
    · apply sound.even.execute fit ran
      · intro mate member
        rcases mem_pending_set index member with ⟨call, here, comes⟩ | stays
        · rw [present] at here
          cases here
          exact .inl comes
        · exact .inr stays
      · rintro value mate rfl awaits
        refine List.mem_filterMap.mpr
          ⟨⟨caller, past ++ [⟨request, .ok value⟩], next (.ok value)⟩, ?_,
            mates value mate awaits⟩
        exact List.mem_of_getElem? (List.getElem?_set_self (List.getElem?_eq_some_iff.mp present).1)

/-- A call that is dropped leaves the rows even. -/
theorem Sound.crash (sound : Sound before) {index : Nat}
    (taken : (identity deployment).step before (.crash index) = some after)
    (fit : Fit deployment.lower before (.crash index)) : Sound after := by
  simp only [Service.step] at taken
  split at taken
  case isFalse => cases taken
  case isTrue within =>
    cases taken
    constructor
    · exact fun call member => sound.follows call (List.mem_of_mem_eraseIdx member)
    · have present : before.running[index]? = some before.running[index] :=
        List.getElem?_eq_getElem within
      cases comes : mateOf before.running[index].program with
      | none =>
          apply sound.even.frame rfl rfl fun _ => id
          intro mate member
          rcases mem_pending_eraseIdx index member with ⟨call, here, isMate⟩ | stays
          · rw [present] at here
            cases here
            rw [comes] at isMate
            cases isMate
          · exact stays
      | some gone =>
          apply sound.even.drop (fit _ present gone comes)
          intro mate member
          rcases mem_pending_eraseIdx index member with ⟨call, here, isMate⟩ | stays
          · rw [present] at here
            cases here
            exact .inl (Option.some.inj (isMate.symm.trans comes))
          · exact .inr stays

/-- One step that fits keeps a sound state sound. -/
theorem Sound.step (sound : Sound before)
    (taken : (identity deployment).step before move = some after)
    (fit : Fit deployment.lower before move) : Sound after := by
  cases move with
  | call request =>
      cases taken
      constructor
      · intro call member
        rcases List.mem_append.mp member with earlier | isNew
        · exact sound.follows call earlier
        · rw [List.mem_singleton.mp isNew]
          exact (handle_paired request).follows
      · apply sound.even.frame rfl rfl fun _ => id
        intro mate member
        obtain ⟨call, earlier, comes⟩ := mem_pending.mp member
        exact mem_pending.mpr ⟨call, List.mem_append_left _ earlier, comes⟩
  | happens event =>
      simp only [Service.step, Option.map_eq_some_iff] at taken
      obtain ⟨rows, happened, rfl⟩ := taken
      exact ⟨sound.follows, sound.even.confirm happened⟩
  | crash index => exact sound.crash taken fit
  | goOn index choice => exact sound.goOn taken fit

/-- Where no call is in flight the roles agree. -/
theorem Sound.agree (sound : Sound after) (seats : Table.Keyed MemberRow.seat after.store.members)
    (quiescent : after.running = []) : Agree after.store := by
  rintro ⟨tenant, user, role⟩ member row isRow rfl rfl
  have isUser := (sound.even.users.find_of_mem isRow)
  have hasRole := (Rows.membershipRole_eq_some_iff seats).mpr member
  rcases sound.even.agree _ _ role row hasRole (Rows.userIn_eq_some_iff.mpr ⟨isUser, rfl⟩) with
    same | ⟨other, awaited⟩
  · exact same
  · rw [pending, quiescent] at awaited
    cases awaited

/-- A permission that a role implies is held with a membership. -/
theorem Sound.permitted (sound : Sound before) {user : UserId} {permission : String}
    {tenant : TenantId} {permissions : List String} {lower : String → String} {choice : Choice}
    (fits : before.store.Fits lower (pending before) choice
      (.hasPermission user permission (some tenant)))
    (holds : before.store.impliedPermission permissions user permission (some tenant) = true) :
    ∃ seat ∈ before.store.seatsOf user tenant,
      ∃ role ∈ before.store.membershipRole tenant seat.id, role.administers = true := by
  simp only [Rows.impliedPermission, Bool.and_eq_true, List.any_eq_true] at holds
  obtain ⟨-, seat, isSeat, administers⟩ := holds
  have undisturbed := fits seat isSeat
  refine ⟨seat, isSeat, ?_⟩
  simp only [Rows.seatsOf, List.mem_filter, Bool.and_eq_true, decide_eq_true_eq] at isSeat
  obtain ⟨member, here, -⟩ := isSeat
  have isUser := Rows.userIn_eq_some_iff.mpr ⟨sound.even.users.find_of_mem member, here⟩
  rcases sound.even.seated tenant seat.id seat isUser administers with seated | ⟨role, awaited⟩
  · obtain ⟨role, hasRole⟩ := Option.isSome_iff_exists.mp seated
    refine ⟨role, hasRole, ?_⟩
    rcases sound.even.agree tenant seat.id role seat hasRole isUser with same | ⟨other, awaited⟩
    · exact same ▸ administers
    · exact absurd rfl (undisturbed _ awaited)
  · exact absurd rfl (undisturbed _ awaited)

end Runs

section Vouching

variable {deployment : Deployment} {rows after : Rows} {choice : Choice} {request : Statement}
  {reply : Except ApiError request.Value}

/-- How the users may come to look while a call waits: each stays, and stays who
it is. -/
def Rows.Later (before after : Rows) : Prop :=
  ∀ user, ∀ row ∈ before.user user, ∃ now ∈ after.user user, now.personId = row.personId

theorem Rows.Later.samePerson {before : Rows} (later : Later before after)
    {user seat : UserId} (same : before.SamePerson user seat) : after.SamePerson user seat := by
  obtain ⟨me, isMe, row, isRow, person⟩ := same
  obtain ⟨meNow, isMeNow, meSame⟩ := later user me isMe
  obtain ⟨rowNow, isRowNow, rowSame⟩ := later seat row isRow
  exact ⟨meNow, isMeNow, rowNow, isRowNow, rowSame.trans (person.trans meSame.symm)⟩

theorem Rows.later_insertUser {row : UserRow} (inserted : rows.insertUser row = some after) :
    Later rows after := by
  obtain ⟨rfl, -, -⟩ := insertUser_cases inserted
  intro user old isOld
  have found : Table.find UserRow.id (rows.users ++ [row]) user =
      (rows.user user).or (if row.id = user then some row else none) := Table.find_insert
  rw [Option.mem_def] at isOld
  rw [isOld, Option.some_or] at found
  exact ⟨old, found, rfl⟩

theorem Rows.later_setUserRole (tenant : TenantId) (user : UserId) (role : Role) :
    Later rows (rows.setUserRole tenant user role) := by
  intro other row isRow
  have changed := @Table.find_map _ _ _ UserRow.id rows.users other
    (fun row => if (row.tenantId, row.id) = (tenant, user) then { row with role := role }
      else row) fun row => by split <;> rfl
  refine ⟨_, changed.trans (congrArg _ isRow), ?_⟩
  dsimp only
  split <;> rfl

theorem Rows.answer_later (ran : rows.answer deployment choice request = some (after, reply)) :
    Later rows after := by
  rcases answer_users_cases ran with same | ⟨tenant, user, role, rfl⟩ | ⟨row, inserted⟩
  · intro user row isRow
    simp only [Rows.user, same]
    exact ⟨row, isRow, rfl⟩
  · exact later_setUserRole tenant user role
  · exact later_insertUser inserted

theorem Rows.Later.refl (rows : Rows) : Later rows rows := fun _ row isRow => ⟨row, isRow, rfl⟩

theorem Rows.Later.trans {first second third : Rows} (one : Later first second)
    (two : Later second third) : Later first third := by
  intro user row isRow
  obtain ⟨between, isBetween, same⟩ := one user row isRow
  obtain ⟨last, isLast, alike⟩ := two user between isBetween
  exact ⟨last, isLast, alike.trans same⟩

theorem Rows.execute_later
    (executed : rows.execute deployment choice request = some (after, reply)) :
    Later rows after := by
  rcases execute_cases executed with ⟨-, told, ran, -⟩ | ⟨-, rfl, -⟩
  · exact answer_later ran
  · exact .refl _

/-- A lookup for an account finds its own person. -/
def Rows.FindsOwn (lower : String → String) (rows : Rows) (choice : Choice) : Statement → Prop
  | .userIdByEmailCi (some account) tenant email =>
      ∀ row ∈ limitOne choice.pick (rows.usersByEmailCi lower tenant email),
        rows.SamePerson account row.id
  | _ => True

/-- What is granted for an account is granted to its person. -/
def Rows.GrantsOwn (rows : Rows) : Statement → Prop
  | .grantMembership (some account) _ seat _ => rows.SamePerson account seat
  | _ => True

/-- What the identity calls owe the person that accepts an invite. -/
def vouching (lower : String → String) : Contract Rows Choice Confirmed Request
    (fun request : Statement => Except ApiError request.Value) (Except ApiError Answer) where
  invariant _ := True
  later := Rows.Later
  permitted _ := Rows.FindsOwn lower
  allowed _ _ := True
  owed _ := Rows.GrantsOwn
  promise _ _ _ _ := True
  later_refl := Rows.Later.refl
  later_trans _ _ _ := Rows.Later.trans

variable {past : List (Exchange Statement fun request => Except ApiError request.Value)}
  {seen : Rows} {First : Type}

theorem grantsOwn_of_none (other : ∀ account, request.grantsFor ≠ some (some account)) :
    rows.GrantsOwn request := by
  cases request with
  | grantMembership account tenant seat role =>
      cases account with
      | none => trivial
      | some account => exact absurd rfl (other account)
  | _ => trivial

/-- A statement that owes nothing tells what its execution tells. -/
theorem runs_vouching (owes : ∀ now, Rows.Later seen now → now.GrantsOwn request)
    {goesOn : Rows → Except ApiError request.Value → Prop}
    (told : ∀ now choice after reply, Rows.Later seen now →
      now.FindsOwn deployment.lower choice request →
      now.execute deployment choice request = some (after, reply) → goesOn after reply) :
    (vouching deployment.lower).Runs (identity deployment) past seen request goesOn := by
  intro now waited _
  refine ⟨owes now waited, ?_⟩
  intro choice after reply finds executed
  exact ⟨trivial, Rows.execute_later executed, told now choice after reply waited finds executed⟩

/-- A program that grants for nobody owes nothing. -/
theorem keeps_of_follows {program : Rest First} (follows : Follows none program) :
    (vouching deployment.lower).Keeps (identity deployment) (fun _ _ _ => True) past seen
      program := by
  induction program generalizing past seen with
  | answer value => trivial
  | statement request next ih =>
      obtain ⟨serving, -, rest⟩ := follows
      apply runs_vouching
      · intro now _
        apply grantsOwn_of_none
        intro account isFor
        cases serving _ isFor
      · intro _ _ after reply _ _ _
        exact ih reply (rest reply)

abbrev Vouches (deployment : Deployment) (fact : First → Rows → Prop) (seen : Rows)
    (program : Handler First) : Prop :=
  (vouching deployment.lower).Yields (identity deployment) fact seen program

theorem vouches_perform {request : Statement} {fact : request.Value → Rows → Prop}
    (owes : ∀ now, Rows.Later seen now → now.GrantsOwn request)
    (told : ∀ now choice after value, Rows.Later seen now →
      now.FindsOwn deployment.lower choice request →
      now.answer deployment choice request = some (after, .ok value) → fact value after) :
    Vouches deployment fact seen (perform request) := by
  apply Contract.yields_perform
  intro _
  apply runs_vouching owes
  rintro now choice after reply waited finds executed value rfl
  rcases Rows.execute_cases executed with ⟨-, told', ran, ⟨-, rfl⟩ | ⟨-, isError⟩⟩ | ⟨-, -, isError⟩
  · exact told now choice after value waited finds ran
  · cases isError
  · cases isError

/-- A statement that grants for nobody, and whose reply does not matter. -/
theorem vouches_any {request : Statement} (other : request.grantsFor = none) :
    Vouches deployment (fun _ _ => True) seen (perform request) := by
  refine vouches_perform (fun _ _ => grantsOwn_of_none ?_) fun _ _ _ _ _ _ _ => trivial
  intro account isFor
  rw [other] at isFor
  cases isFor

/-- A handler that grants for nobody. -/
theorem vouches_of_paired {program : Handler First} (paired : Paired none program) :
    Vouches deployment (fun _ _ => True) seen program where
  keeps _ _ := (keeps_of_follows paired.follows).mono fun _ _ _ _ _ _ => trivial

/-- The account is a user, and of the person that was read. -/
def Rows.Knows (rows : Rows) (account : UserId) (person : PersonId) : Prop :=
  ∃ me ∈ rows.user account, me.personId = person

theorem Rows.Knows.later {before : Rows} {account : UserId} {person : PersonId}
    (knows : before.Knows account person) (later : Later before after) :
    after.Knows account person := by
  obtain ⟨me, isMe, rfl⟩ := knows
  exact later account me isMe

/-- The seat of an invited account is its own person's. -/
theorem seatFor_vouches {account : UserId} {me : IdentityBits} {invite : InviteRow}
    (knows : seen.Knows account me.personId) :
    Vouches deployment (fun seat store => store.SamePerson account seat) seen
      (seatFor account me invite) := by
  have looks : Vouches deployment (fun present store => store.Knows account me.personId ∧
      ∀ seat ∈ present, store.SamePerson account seat) seen
      (perform (.userIdByEmailCi (some account) invite.tenantId invite.email)) := by
    refine vouches_perform (fun _ _ => ?_) ?_
    · trivial
    intro now choice after present waited finds ran
    cases ran
    refine ⟨knows.later waited, ?_⟩
    intro seat isSeat
    obtain ⟨row, isRow, rfl⟩ := Option.map_eq_some_iff.mp isSeat
    exact finds row isRow
  apply Contract.yields_bind looks
  rintro present store _ ⟨known, finds⟩
  cases present with
  | some seat => exact Contract.yields_pure (finds seat rfl)
  | none =>
      apply @vouches_perform deployment store (.createMemberUser invite.tenantId me.displayName
        invite.email invite.role me.personId) _ fun _ _ => trivial
      intro now choice after seat waited _ ran
      simp only [Rows.answer] at ran
      split at ran
      case isTrue => cases ran
      case isFalse =>
        obtain ⟨made, inserted, same⟩ := Option.map_eq_some_iff.mp ran
        cases same
        obtain ⟨mine, isMine, person⟩ :=
          (known.later waited).later (Rows.later_insertUser inserted)
        exact ⟨mine, isMine, _, Rows.user_inserted inserted, person.symm⟩

/-- A membership is granted to the seat of the account's person. -/
theorem vouches_grant {account seat : UserId} {tenant : TenantId} {role : Role}
    (same : seen.SamePerson account seat) :
    Vouches deployment (fun _ _ => True) seen
      (perform (.grantMembership (some account) tenant seat role)) :=
  vouches_perform (fun _ waited => waited.samePerson same) fun _ _ _ _ _ _ _ => trivial

theorem join_vouches {account : UserId} {me : IdentityBits} {invite : InviteRow}
    (knows : seen.Knows account me.personId) :
    Vouches deployment (fun _ _ => True) seen (join account me invite) := by
  apply Contract.yields_bind (seatFor_vouches knows)
  intro seat store _ same
  apply Contract.yields_bind (vouches_grant same)
  intro _ after _ _
  apply Contract.yields_bind (vouches_any rfl)
  intro _ _ _ _
  exact Contract.yields_pure trivial

/-- What is known lasts while another statement runs. -/
theorem vouches_still {request : Statement} {account : UserId} {person : PersonId}
    (other : request.grantsFor = none) (knows : seen.Knows account person) :
    Vouches deployment (fun _ store => store.Knows account person) seen (perform request) :=
  ((vouches_any other).carry (fun store => store.Knows account person)
    (fun _ waited known => known.later waited) knows).imp fun _ _ both => both.2

theorem redeem_vouches {user : UserId} {fallback : TenantId} {me : IdentityBits}
    {invite : InviteRow} {emailMatches : Bool} (knows : seen.Knows user me.personId) :
    Vouches deployment (fun _ _ => True) seen
      (redeem user fallback me invite emailMatches) := by
  unfold redeem
  split
  case isTrue => exact Contract.yields_pure trivial
  case isFalse =>
    apply Contract.yields_bind (vouches_still rfl knows)
    intro fresh one _ known
    split
    case isTrue => exact Contract.yields_pure trivial
    case isFalse =>
      split
      case isTrue => exact Contract.yields_pure trivial
      case isFalse =>
        apply Contract.yields_bind (vouches_still rfl known)
        intro verified two _ stillKnown
        split
        case isTrue => exact Contract.yields_pure trivial
        case isFalse => exact join_vouches stillKnown

theorem acceptCore_vouches (user : UserId) (fallback : TenantId) (token : String) :
    Vouches deployment (fun _ _ => True) seen (acceptCore deployment user fallback token) := by
  have reads : Vouches deployment
      (fun (bits : Option IdentityBits) store => ∀ me ∈ bits, store.Knows user me.personId) seen
      (perform (.userIdentityBits user)) := by
    refine @vouches_perform deployment seen (.userIdentityBits user) _ (fun _ _ => ?_) ?_
    · trivial
    intro now choice after bits _ _ ran
    cases ran
    intro me isMe
    obtain ⟨row, isRow, rfl⟩ := Option.map_eq_some_iff.mp isMe
    exact ⟨row, isRow, rfl⟩
  apply Contract.yields_bind reads
  intro bits one _ knows
  cases bits with
  | none => exact Contract.yields_throw
  | some me =>
      apply Contract.yields_bind (vouches_still rfl (knows me rfl))
      intro invite two _ known
      cases invite with
      | none => exact Contract.yields_pure trivial
      | some invite =>
          apply Contract.yields_bind (vouches_still rfl known)
          intro seat three _ stillKnown
          cases seat with
          | none => exact redeem_vouches stillKnown
          | some seat => exact vouches_of_paired (alreadyMember_paired invite _)

/-- A call that serves no account. -/
theorem vouches_handle (request : Request) (other : request.serves = none) :
    Vouches deployment (fun _ _ => True) seen (handle deployment request) := by
  have paired := @handle_paired deployment request
  rw [other] at paired
  exact vouches_of_paired paired

theorem vouching_met : (vouching deployment.lower).Met (identity deployment) where
  handlers := by
    intro request store _
    have vouches : Vouches deployment (fun _ _ => True) store (handle deployment request) := by
      cases request with
      | manage call =>
          cases call with
          | accept user fallback token =>
              exact Contract.yields_map (acceptCore_vouches user fallback token)
          | _ => exact vouches_handle _ rfl
      | _ => exact vouches_handle _ rfl
    exact (vouches.keeps trivial []).mono fun _ _ _ _ => trivial
  world := by
    intro before event after _ _ happened
    refine ⟨trivial, ?_⟩
    simp only [identity, Rows.markLocalEmailVerified] at happened
    split at happened
    case isTrue => cases happened
    case isFalse =>
      cases happened
      exact .refl _

end Vouching

section Claim

variable {deployment : Deployment} {rows : Rows} {before after final : State} {move : Move}
  {moves : List Move}

/-- What holds throughout: the rows are even but for what is pending, a seat has
one row, and the calls in flight vouch for what they grant. -/
structure Steady (deployment : Deployment) (state : State) : Prop where
  sound : Sound state
  seats : Table.Keyed MemberRow.seat state.store.members
  kept : (vouching deployment.lower).Kept (identity deployment) state

theorem Fit.permits (fit : Fit deployment.lower before move) :
    (vouching deployment.lower).Permits before move := by
  cases move with
  | goOn index choice =>
      simp only [Fit] at fit
      simp only [Contract.Permits]
      split
      case h_1 caller past request next present =>
        simp only [present] at fit
        cases request with
        | userIdByEmailCi account tenant email =>
            cases account with
            | none => trivial
            | some account => exact fit
        | _ => trivial
      case h_2 => trivial
  | _ => trivial

theorem Steady.step (steady : Steady deployment before)
    (taken : (identity deployment).step before move = some after)
    (fit : Fit deployment.lower before move) : Steady deployment after where
  sound := steady.sound.step taken fit
  seats := by
    cases move with
    | call request =>
        cases taken
        exact steady.seats
    | happens event =>
        simp only [Service.step, Option.map_eq_some_iff] at taken
        obtain ⟨rows, happened, rfl⟩ := taken
        simp only [identity, Rows.markLocalEmailVerified] at happened
        split at happened
        case isTrue => cases happened
        case isFalse =>
          cases happened
          exact steady.seats
    | crash index =>
        simp only [Service.step] at taken
        split at taken
        case isFalse => cases taken
        case isTrue =>
          cases taken
          exact steady.seats
    | goOn index choice =>
        rcases (identity deployment).resume_cases taken with
          ⟨caller, past, value, present, rfl⟩ |
          ⟨caller, past, request, next, rows, reply, present, executed, rfl⟩
        · exact steady.seats
        · rcases Rows.execute_cases executed with ⟨-, told, ran, -⟩ | ⟨-, rfl, -⟩
          · exact Rows.answer_seats ran steady.seats
          · exact steady.seats
  kept := (steady.kept.step vouching_met taken fit.permits).1

/-- In a steady state a step that fits is rightful. -/
theorem Steady.rightful (steady : Steady deployment before)
    (fit : Fit deployment.lower before move) : Rightful deployment.tenantAdmin before move := by
  cases move with
  | goOn index choice =>
      have owes := steady.kept.owes (.goOn index choice)
      simp only [Fit] at fit
      simp only [Contract.Owes] at owes
      simp only [Rightful]
      split
      case h_1 user fallback token past account tenant seat role next present =>
        intro _
        obtain ⟨serving, -⟩ := steady.sound.follows _ (List.mem_of_getElem? present)
        have same : account = some user := serving account rfl
        subst same
        simp only [present] at owes
        exact owes
      case h_2 caller past user permission tenant next present =>
        simp only [present] at fit
        exact steady.sound.permitted fit
      case h_3 => trivial
  | _ => trivial

/-- In every interleaving of the identity calls whose steps fit, who accepts an
invite grants a membership to the own person only, an implied permission is held
with a membership that administers, and when no call is in flight the roles
agree. -/
theorem membership_follows (even : rows.Even [])
    (seats : Table.Keyed MemberRow.seat rows.members)
    (fit : Along (identity deployment).step (fun before move _ => Fit deployment.lower before move)
      (Service.start rows) moves)
    (ran : run (identity deployment).step (Service.start rows) moves = some final) :
    Along (identity deployment).step
        (fun before move _ => Rightful deployment.tenantAdmin before move)
        (Service.start rows) moves ∧
      (final.running = [] → Agree final.store) := by
  have started : Steady deployment (Service.start rows) :=
    ⟨⟨nofun, even⟩, seats, Contract.kept_start trivial⟩
  have preserved (before : State) (move : Move) (after : State)
      (steady : Steady deployment before)
      (taken : (identity deployment).step before move = some after)
      (fits : Fit deployment.lower before move) : Steady deployment after :=
    steady.step taken fits
  constructor
  · exact fit.of_invariant (Steady deployment) preserved
      (fun _ _ _ steady _ fits => steady.rightful fits) started
  · have steady := fit.run_invariant (Steady deployment) preserved started ran
    exact steady.sound.agree steady.seats

instance (rows : Rows) (user seat : UserId) : Decidable (rows.SamePerson user seat) :=
  inferInstanceAs (Decidable (∃ me ∈ rows.user user, ∃ row ∈ rows.user seat, _))

instance (permissions : List String) (state : State) (move : Move) :
    Decidable (Rightful permissions state move) := by
  unfold Rightful
  split
  case h_1 => split <;> infer_instance
  case h_2 => exact isTrue trivial

instance (rows : Rows) : Decidable (Agree rows) :=
  inferInstanceAs (Decidable (∀ member ∈ rows.members, ∀ user ∈ rows.users, _ → _ → _))

instance (rows : Rows) (tenant : TenantId) (user : UserId) :
    Decidable (rows.Settled tenant user) :=
  inferInstanceAs (Decidable (∀ row ∈ rows.userIn tenant user, (∀ role ∈ _, _) ∧ (_ → _)))

instance (lower : String → String) (rows : Rows) (mates : List Mate) (choice : Choice)
    (request : Statement) : Decidable (rows.Fits lower mates choice request) := by
  unfold Rows.Fits
  split <;> infer_instance

instance (lower : String → String) (state : State) (move : Move) :
    Decidable (Fit lower state move) := by
  unfold Fit
  split
  case h_1 => split <;> infer_instance
  case h_2 => infer_instance
  case h_3 => exact isTrue trivial

def goesOn (index count : Nat) : List Move := List.replicate count (.goOn index {})

def seat (id : UserId) (tenant : TenantId) (name : String) (role : Role) : UserRow :=
  { id := id, tenantId := tenant, displayName := name, email := name ++ "@example.com",
    role := role, personId := 100 + id }

def inviteOf (id : InviteId) (name : String) : InviteRow :=
  { id := id, tenantId := 1, email := name ++ "@example.com", role := .member,
    tokenHash := "inv_" ++ name, status := .pending, expiresAt := 1000 }

def verified (user : UserId) (name : String) : IdentityRow :=
  ⟨user, "idp", name, some (name ++ "@example.com"), true⟩

/-- A tenant of an owner and an admin, and somebody with a tenant of their own;
invites are out to the admin and to them. -/
def town : Rows where
  tenants := [{ id := 1, name := "team", slug := "team" },
    { id := 2, name := "dan", slug := "dan" }]
  users := [seat 1 1 "ada" .owner, seat 3 1 "cleo" .admin, seat 9 2 "dan" .owner]
  members := [⟨1, 1, .owner⟩, ⟨1, 3, .admin⟩, ⟨2, 9, .owner⟩]
  identities := [verified 1 "ada", verified 3 "cleo", verified 9 "dan"]
  invites := [inviteOf 1 "dan", inviteOf 2 "cleo"]

/-- Somebody registers under the invite of another, who then accepts it. -/
def registersFirst : List Move :=
  .call (.register ⟨"inv_dan", "squatter", "Not Dan", "correct horse battery"⟩) :: goesOn 0 3 ++
    .goOn 0 { fresh := 20, person := 120 } :: goesOn 0 1 ++
    .call (.manage (.accept 9 2 "inv_dan")) :: goesOn 0 6

def removesAdmin : List Move :=
  .call (.manage (.removeMember ⟨1, 1⟩ 1 3)) :: goesOn 0 4

/-- An admin is removed and asks for a permission. -/
def asksLater : List Move :=
  removesAdmin ++ [.call (.hasPermission 3 "tenant.manage" (some 1))]

/-- An admin is removed and accepts an invite as a member. -/
def comesBack : List Move :=
  removesAdmin ++ .call (.manage (.accept 3 1 "inv_cleo")) :: goesOn 0 9

/-- In the first two runs the next step is not rightful; in the last the roles
differ and no call is in flight. -/
theorem membership_strays :
    (∀ moves ∈ [registersFirst, asksLater], ∃ before after,
      run (identity .plain).step (Service.start town) moves = some before ∧
      (identity .plain).step before (.goOn 0 {}) = some after ∧
      ¬ Rightful Deployment.plain.tenantAdmin before (.goOn 0 {})) ∧
    ∃ final, run (identity .plain).step (Service.start town) comesBack = some final ∧
      final.running = [] ∧ ¬ Agree final.store := by
  have wrongs : ∀ moves ∈ [registersFirst, asksLater],
      (run (identity .plain).step (Service.start town) moves).any (fun before =>
        ((identity .plain).step before (.goOn 0 {})).isSome &&
          decide (¬ Rightful Deployment.plain.tenantAdmin before (.goOn 0 {}))) = true := by
    decide +kernel
  have differs : (run (identity .plain).step (Service.start town) comesBack).any (fun final =>
      final.running.isEmpty && decide (¬ Agree final.store)) = true := by
    decide +kernel
  constructor
  · intro moves isRun
    obtain ⟨before, ran, both⟩ := (Option.any_eq_true _ _).mp (wrongs moves isRun)
    obtain ⟨taken, wrong⟩ := Bool.and_eq_true_iff.mp both
    obtain ⟨after, moved⟩ := Option.isSome_iff_exists.mp taken
    exact ⟨before, after, ran, moved, of_decide_eq_true wrong⟩
  · obtain ⟨final, ran, both⟩ := (Option.any_eq_true _ _).mp differs
    obtain ⟨quiet, differ⟩ := Bool.and_eq_true_iff.mp both
    exact ⟨final, ran, List.isEmpty_iff.mp quiet, of_decide_eq_true differ⟩

/-- The admin becomes a member and is removed, and the other joins and asks for a
permission. -/
def inOrder : List Move :=
  .call (.manage (.changeMemberRole ⟨1, 1⟩ 1 3 "member")) :: goesOn 0 6 ++
    .call (.manage (.removeMember ⟨1, 1⟩ 1 3)) :: goesOn 0 4 ++
    .call (.manage (.accept 9 2 "inv_dan")) :: goesOn 0 6 ++
    .goOn 0 { fresh := 20 } :: goesOn 0 3 ++
    .call (.hasPermission 9 "tenant.manage" (some 1)) :: goesOn 0 2

theorem membership_follows_inOrder :
    ∃ final, run (identity .plain).step (Service.start town) inOrder = some final ∧
      Along (identity .plain).step
        (fun before move _ => Rightful Deployment.plain.tenantAdmin before move)
        (Service.start town) inOrder ∧
      (final.running = [] → Agree final.store) := by
  have runs : (run (identity .plain).step (Service.start town) inOrder).isSome = true := by
    decide +kernel
  obtain ⟨final, ran⟩ := Option.isSome_iff_exists.mp runs
  exact ⟨final, ran, membership_follows (.of_settled (by unfold Table.Keyed; decide)
    (by decide) (by decide)) (by unfold Table.Keyed; decide) (by decide +kernel) ran⟩

end Claim

end NookOs.Identity
