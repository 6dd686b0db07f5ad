import Kayan.Lib.Ddl

/-!
# The identifiers of the migrations

The names of types, tables, columns, indexes, constraints and other objects that the files in
`db/migrations` mention, and the forms of columns and constraints that recur in them.
-/
namespace Kayan.Migrations
open Ddl

inductive Name where
  -- types
  | userStatus | productStatus | reportStatus | fileStatus | filePurpose | kayanOrderStatus | kayanFaultStatus
  | kayanServiceStatus | kayanFaultSeverity | kayanServiceType | kayanFollowupItemType | kayanRatingItemType
  -- tables
  | users | userContacts | authOtps | files | categories | products | productImages | conversations | messages
  | userRatings | userReports | adminWarnings | pendingRegistrations | authOtpAttempts | authRefreshTokens
  | adminAuditLogs | userFavorites | userBlocks | catalogProducts | productAssets | productOrders | orderItems
  | orderStatusHistory | faultReports | faultAssets | faultStatusHistory | serviceOrders | serviceStatusHistory
  | followupSteps | itemRatings | galleryItems | galleryAssets | followupConversations | followupMessages
  | cartItems | productRatings
  -- columns; `contactType` is a type as well
  | id | name | ssn | phone | passwordHash | avatarFileId | avatarObjectKey | status | createdAt | updatedAt
  | userId | type | contactType | value | city | isPrimary | codeHash | purpose | expiresAt | usedAt
  | uploaderUserId | ownerType | ownerId | storageProvider | bucket | objectKey | originalFilename | mimeType
  | fileSizeBytes | checksumSha256 | uploadedAt | failedAt | deletedAt | parentId | categoryId | description
  | price | addressText | productId | fileId | sortOrder | userAId | userBId | conversationId | senderId
  | messageText | sentAt | readAt | raterId | ratedUserId | ratingValue | comment | reporterId | reportedUserId
  | reason | reviewedBy | reviewedAt | adminId | targetUserId | message | sellerRate | lastMessageId | salt
  | isAdmin | tokenVersion | attempts | jti | revokedAt | actorId | action | targetType | targetId | payload
  | details | isNegotiable | preferredContactMethod | blockerId | blockedId | contactInfo | category
  | subcategory | email | title | amount | isActive | createdBy | updatedBy | assetType | deliveryAddress
  | cancelledAt | orderId | quantity | unitPrice | changedBy | note | severity | address | faultId
  | serviceType | serviceId | itemType | itemId | stepImageFileId | galleryItemId
  -- indexes
  | userContactsUniqueEmail | userContactsUserTypeIdx | userContactsPrimaryPerTypeIdx
  | authOtpsPhonePurposeCreatedIdx | filesProviderBucketObjectKeyUniqueIdx | filesOwnerLookupIdx
  | filesUploaderCreatedIdx | filesStatusCreatedIdx | categoriesSiblingNameUniqueIdx | categoriesParentIdIdx
  | productsCategoryStatusCreatedIdx | productsPriceIdx | productsCityIdx | productsSearchTsvIdx
  | messagesConversationSentIdx | userRatingsRatedUserIdx | userReportsStatusCreatedIdx
  | adminWarningsTargetUserIdx | pendingRegistrationsPhoneIdx | pendingRegistrationsPhoneUniqueIdx
  | pendingRegistrationsSsnUniqueIdx | authOtpAttemptsExpiresIdx | authRefreshTokensUserIdx
  | authRefreshTokensExpiresIdx | adminAuditLogsActorIdx | adminAuditLogsTargetIdx | conversationsProductIdIdx
  | userFavoritesProductCreatedIdx | userBlocksBlockedIdx | usersDeletedAtIdx | usersEmailUniqueIdx
  | catalogProductsActiveCreatedIdx | productOrdersUserCreatedIdx | faultReportsUserCreatedIdx
  | serviceOrdersUserCreatedIdx | followupStepsLookupIdx | itemRatingsLookupIdx | galleryItemsActiveCreatedIdx
  | followupMessagesConvSentIdx | pendingRegistrationsEmailIdx | pendingRegistrationsEmailUniqueIdx
  | authOtpsEmailPurposeCreatedIdx | pendingRegistrationsEmailUniquePlainIdx
  | pendingRegistrationsEmailExpiresIdx | cartItemsUserCreatedIdx | cartItemsProductIdx
  | productRatingsOrderProductIdx | productRatingsProductIdx
  -- constraints
  | usersAvatarFileIdFkey | productsCategoryIdFkey | productsPreferredContactMethodCheck
  | productsCategoryNotBlankCheck | productsSubcategoryNotBlankCheck | productsCategoryEnumCheck
  | productsSubcategoryEnumCheck | productsSubcategoryNotAllCheck | authOtpAttemptsPkey
  -- a view, a function and a trigger
  | productListingView | enforceLeafCategoryForProduct | trgProductsLeafCategory
  deriving DecidableEq

section Columns

/-- A column that may be null. -/
def nullable (column : Name) (builtin : String) (default : Option String := none) : Column Name :=
  ⟨column, .builtin builtin, false, default⟩

/-- A `NOT NULL` column. -/
def required (column : Name) (builtin : String) (default : Option String := none) : Column Name :=
  ⟨column, .builtin builtin, true, default⟩

/-- A `NOT NULL` column of an enumeration. -/
def enum (column custom : Name) (default : Option String := none) : Column Name :=
  ⟨column, .custom custom, true, default⟩

def identity : Column Name := required .id "BIGINT GENERATED ALWAYS AS IDENTITY"

def bigint (column : Name) : Column Name := required column "BIGINT"

def text (column : Name) : Column Name := required column "TEXT"

/-- A time that is `NOW()` by default. -/
def stamp (column : Name) : Column Name := required column "TIMESTAMPTZ" (some "NOW()")

end Columns

section Constraints

def primaryKey (columns : List Name) : Constraint Name := ⟨columns, .primaryKey, none⟩

def unique (columns : List Name) : Constraint Name := ⟨columns, .unique, none⟩

def check (columns : List Name) (text : String) : Constraint Name := ⟨columns, .check text, none⟩

/-- `REFERENCES table(id) ON DELETE ...`. -/
def references (column table : Name) (onDelete : String) : Constraint Name :=
  ⟨[column], .references table .id onDelete, none⟩

end Constraints
end Kayan.Migrations
