import Kayan.Lib.Migration
import Kayan.Migrations.Names

/-!
# The migration files

The files in `db/migrations`, statement by statement, in the order in which `migrate.sh` applies them.
`psql` runs each statement on its own, and a file that is wrapped in `BEGIN` and `COMMIT` as a whole.
Statements are about the schema: an `UPDATE` needs the columns that it names, and leaves them.
-/
namespace Kayan.Migrations
open Ddl

/-- A file that `psql` runs statement by statement. -/
def plain (file : String) (stmts : List (Stmt Name)) : Migration.File String (Catalog Name) :=
  ⟨file, stmts.map Stmt.exec⟩

/-- A file wrapped in `BEGIN` and `COMMIT`. -/
def transaction (file : String) (stmts : List (Stmt Name)) : Migration.File String (Catalog Name) :=
  ⟨file, [Migration.runSteps (stmts.map Stmt.exec)]⟩

def createType (custom : Name) (labels : List String) : Stmt Name := .command (.createType false ⟨custom, labels⟩)

/-- `DO $$ BEGIN CREATE TYPE ...; EXCEPTION WHEN duplicate_object THEN NULL; END $$`. -/
def createTypeUnlessExists (custom : Name) (labels : List String) : Stmt Name :=
  .command (.createType true ⟨custom, labels⟩)

def createTable (table : Name) (columns : List (Column Name)) (constraints : List (Constraint Name)) : Stmt Name :=
  .command (.createTable false ⟨table, columns, constraints⟩)

def createTableIfNotExists (table : Name) (columns : List (Column Name)) (constraints : List (Constraint Name)) :
    Stmt Name :=
  .command (.createTable true ⟨table, columns, constraints⟩)

def createIndex (index table : Name) (columns : List Name) (text : String := "") (unique : Bool := false) : Stmt Name :=
  .command (.createIndex false ⟨index, table, columns, text, unique⟩)

def createIndexIfNotExists (index table : Name) (columns : List Name) (text : String := "") (unique : Bool := false) :
    Stmt Name :=
  .command (.createIndex true ⟨index, table, columns, text, unique⟩)

def dropIndexIfExists (index : Name) : Stmt Name := .command (.dropIndex true index)

def dropTableIfExists (table : Name) : Stmt Name := .command (.dropTable true table)

def dropTypeIfExists (custom : Name) : Stmt Name := .command (.dropType true custom)

def dropViewIfExists (view : Name) : Stmt Name := .command (.dropView true view)

def alterTable (table : Name) (actions : List (Action Name)) : Stmt Name := .command (.alterTable table actions)

def addColumn (column : Column Name) : Action Name := .addColumn false column []

def addColumnIfNotExists (column : Column Name) (constraints : List (Constraint Name) := []) : Action Name :=
  .addColumn true column constraints

def update (names : List (Name × Name)) : Stmt Name := .command (.update names)

/-- `product_listing_view` with some columns of `products`, and the seller's average rating. -/
def listingView (columns : List Name) (condition : List Name) (text : String) : View Name where
  name := .productListingView
  columns := columns ++ [.sellerRate]
  reads := (columns ++ condition).map (fun column => (.products, column)) ++
    [(.userRatings, .ratingValue), (.userRatings, .ratedUserId)]
  text := text

section Market

def file0001 : Migration.File String (Catalog Name) := transaction "0001_init.sql" [
  createType .userStatus ["active", "paused", "banned"],
  createType .productStatus ["available", "sold", "archived"],
  createType .reportStatus ["open", "reviewing", "resolved", "rejected"],
  createType .contactType ["phone", "email", "address"],
  createType .fileStatus ["pending", "uploaded", "failed", "deleted"],
  createType .filePurpose ["avatar", "product_image", "chat_attachment", "document"],
  createTable .users
    [identity, required .name "VARCHAR(150)", required .ssn "VARCHAR(32)", required .phone "VARCHAR(32)",
     text .passwordHash, nullable .avatarFileId "BIGINT", nullable .avatarObjectKey "TEXT",
     enum .status .userStatus (some "'active'"), stamp .createdAt, stamp .updatedAt]
    [primaryKey [.id], unique [.ssn], unique [.phone]],
  createTable .userContacts
    [identity, bigint .userId, enum .type .contactType, text .value, nullable .city "TEXT",
     required .isPrimary "BOOLEAN" (some "FALSE"), stamp .createdAt, stamp .updatedAt]
    [primaryKey [.id], references .userId .users "CASCADE"],
  createIndex .userContactsUniqueEmail .userContacts [.value, .type] "(LOWER(value)) WHERE type = 'email'" true,
  createIndex .userContactsUserTypeIdx .userContacts [.userId, .type] "(user_id, type)",
  createIndex .userContactsPrimaryPerTypeIdx .userContacts [.userId, .type, .isPrimary]
    "(user_id, type) WHERE is_primary = TRUE" true,
  createTable .authOtps
    [identity, nullable .userId "BIGINT", required .phone "VARCHAR(32)", text .codeHash, text .purpose,
     required .expiresAt "TIMESTAMPTZ", nullable .usedAt "TIMESTAMPTZ", stamp .createdAt]
    [primaryKey [.id], references .userId .users "SET NULL",
     check [.purpose] "purpose IN ('registration', 'password_reset')"],
  createIndex .authOtpsPhonePurposeCreatedIdx .authOtps [.phone, .purpose, .createdAt]
    "(phone, purpose, created_at DESC)",
  createTable .files
    [identity, nullable .uploaderUserId "BIGINT", text .ownerType, nullable .ownerId "BIGINT",
     enum .purpose .filePurpose, required .storageProvider "TEXT" (some "'r2'"), nullable .bucket "TEXT",
     text .objectKey, nullable .originalFilename "TEXT", nullable .mimeType "TEXT", nullable .fileSizeBytes "BIGINT",
     nullable .checksumSha256 "TEXT", enum .status .fileStatus (some "'pending'"), nullable .uploadedAt "TIMESTAMPTZ",
     nullable .failedAt "TIMESTAMPTZ", nullable .deletedAt "TIMESTAMPTZ", stamp .createdAt, stamp .updatedAt]
    [primaryKey [.id], references .uploaderUserId .users "SET NULL",
     check [.ownerType] "owner_type IN ('user', 'product', 'message')",
     check [.fileSizeBytes] "file_size_bytes IS NULL OR file_size_bytes >= 0",
     check [.objectKey] "LENGTH(BTRIM(object_key)) > 0", check [.ownerId] "owner_id IS NULL OR owner_id > 0",
     check [.status, .uploadedAt] "status <> 'uploaded' OR uploaded_at IS NOT NULL",
     check [.status, .failedAt] "status <> 'failed' OR failed_at IS NOT NULL",
     check [.status, .deletedAt] "status <> 'deleted' OR deleted_at IS NOT NULL"],
  createIndex .filesProviderBucketObjectKeyUniqueIdx .files [.storageProvider, .bucket, .objectKey]
    "(storage_provider, COALESCE(bucket, ''), object_key)" true,
  createIndex .filesOwnerLookupIdx .files [.ownerType, .ownerId, .purpose] "(owner_type, owner_id, purpose)",
  createIndex .filesUploaderCreatedIdx .files [.uploaderUserId, .createdAt] "(uploader_user_id, created_at DESC)",
  createIndex .filesStatusCreatedIdx .files [.status, .createdAt] "(status, created_at DESC)",
  alterTable .users
    [.addConstraint ⟨[.avatarFileId], .references .files .id "SET NULL", some .usersAvatarFileIdFkey⟩],
  createTable .categories
    [identity, nullable .parentId "BIGINT", text .name, stamp .createdAt]
    [primaryKey [.id], references .parentId .categories "RESTRICT",
     check [.parentId, .id] "parent_id IS NULL OR parent_id <> id"],
  createIndex .categoriesSiblingNameUniqueIdx .categories [.parentId, .name]
    "(COALESCE(parent_id, 0), LOWER(name))" true,
  createIndex .categoriesParentIdIdx .categories [.parentId] "(parent_id)",
  createTable .products
    [identity, bigint .ownerId, bigint .categoryId, text .name, text .description,
     required .price "NUMERIC(12,2)", text .city, text .addressText, enum .status .productStatus (some "'available'"),
     stamp .createdAt, stamp .updatedAt]
    -- the reference to `categories` has the name that is generated for it
    [primaryKey [.id], references .ownerId .users "CASCADE",
     ⟨[.categoryId], .references .categories .id "RESTRICT", some .productsCategoryIdFkey⟩,
     check [.price] "price >= 0"],
  createTable .productImages
    [identity, bigint .productId, bigint .fileId, text .objectKey, nullable .mimeType "TEXT",
     nullable .fileSizeBytes "BIGINT", required .sortOrder "INT" (some "0"), stamp .createdAt]
    [primaryKey [.id], references .productId .products "CASCADE", references .fileId .files "CASCADE",
     check [.fileSizeBytes] "file_size_bytes IS NULL OR file_size_bytes >= 0", check [.sortOrder] "sort_order >= 0",
     unique [.productId, .sortOrder]],
  .command (.createFunction ⟨.enforceLeafCategoryForProduct,
    "IF EXISTS (SELECT 1 FROM categories c WHERE c.parent_id = NEW.category_id LIMIT 1) THEN RAISE EXCEPTION"⟩),
  .command (.createTrigger ⟨.trgProductsLeafCategory, .products, [.categoryId], .enforceLeafCategoryForProduct,
    "BEFORE INSERT OR UPDATE OF category_id ON products FOR EACH ROW"⟩),
  createIndex .productsCategoryStatusCreatedIdx .products [.categoryId, .status, .createdAt]
    "(category_id, status, created_at DESC)",
  createIndex .productsPriceIdx .products [.price] "(price)",
  createIndex .productsCityIdx .products [.city] "(city)",
  createIndex .productsSearchTsvIdx .products [.name, .description]
    "USING GIN (to_tsvector('simple', COALESCE(name, '') || ' ' || COALESCE(description, '')))",
  createTable .conversations
    [identity, bigint .userAId, bigint .userBId, stamp .createdAt]
    [primaryKey [.id], references .userAId .users "CASCADE", references .userBId .users "CASCADE",
     check [.userAId, .userBId] "user_a_id < user_b_id", unique [.userAId, .userBId]],
  createTable .messages
    [identity, bigint .conversationId, bigint .senderId, text .messageText, stamp .sentAt,
     nullable .readAt "TIMESTAMPTZ"]
    [primaryKey [.id], references .conversationId .conversations "CASCADE", references .senderId .users "CASCADE",
     check [.messageText] "LENGTH(BTRIM(message_text)) > 0"],
  createIndex .messagesConversationSentIdx .messages [.conversationId, .sentAt] "(conversation_id, sent_at DESC)",
  createTable .userRatings
    [identity, bigint .raterId, bigint .ratedUserId, required .ratingValue "SMALLINT", nullable .comment "TEXT",
     stamp .createdAt, stamp .updatedAt]
    [primaryKey [.id], references .raterId .users "CASCADE", references .ratedUserId .users "CASCADE",
     check [.ratingValue] "rating_value BETWEEN 1 AND 5", check [.raterId, .ratedUserId] "rater_id <> rated_user_id",
     unique [.raterId, .ratedUserId]],
  createIndex .userRatingsRatedUserIdx .userRatings [.ratedUserId] "(rated_user_id)",
  createTable .userReports
    [identity, bigint .reporterId, bigint .reportedUserId, text .reason, enum .status .reportStatus (some "'open'"),
     nullable .reviewedBy "BIGINT", nullable .reviewedAt "TIMESTAMPTZ", stamp .createdAt, stamp .updatedAt]
    [primaryKey [.id], references .reporterId .users "CASCADE", references .reportedUserId .users "CASCADE",
     references .reviewedBy .users "SET NULL", check [.reporterId, .reportedUserId] "reporter_id <> reported_user_id"],
  createIndex .userReportsStatusCreatedIdx .userReports [.status, .createdAt] "(status, created_at DESC)",
  createTable .adminWarnings
    [identity, nullable .adminId "BIGINT", nullable .targetUserId "BIGINT", text .message, stamp .createdAt]
    [primaryKey [.id], references .adminId .users "SET NULL", references .targetUserId .users "SET NULL"],
  createIndex .adminWarningsTargetUserIdx .adminWarnings [.targetUserId, .createdAt]
    "(target_user_id, created_at DESC)",
  .command (.createView false (listingView
    [.id, .ownerId, .categoryId, .name, .description, .price, .city, .addressText, .status, .createdAt, .updatedAt]
    [] "GROUP BY p.id"))]

def file0002 : Migration.File String (Catalog Name) := plain "0002_products_soft_delete.sql" [
  alterTable .products [addColumnIfNotExists (nullable .deletedAt "TIMESTAMPTZ")],
  .command (.createView true (listingView
    [.id, .ownerId, .categoryId, .name, .description, .price, .city, .addressText, .status, .createdAt, .updatedAt]
    [.deletedAt] "WHERE p.deleted_at IS NULL GROUP BY p.id"))]

def file0003 : Migration.File String (Catalog Name) := plain "0003_conversations_last_message.sql" [
  alterTable .conversations
    [addColumnIfNotExists (nullable .lastMessageId "BIGINT") [references .lastMessageId .messages "SET NULL"]],
  update [(.conversations, .lastMessageId), (.conversations, .id), (.messages, .id), (.messages, .conversationId),
    (.messages, .sentAt)]]

def file0004 : Migration.File String (Catalog Name) := plain "0004_fix_storage_provider_default.sql" [
  alterTable .files [.setDefault .storageProvider "'cloudinary'"],
  update [(.files, .storageProvider)]]

def file0005 : Migration.File String (Catalog Name) := transaction "0005_pending_registrations.sql" [
  alterTable .authOtps [addColumnIfNotExists (required .salt "TEXT" (some "''"))],
  createTable .pendingRegistrations
    [identity, required .phone "VARCHAR(32)", required .ssn "VARCHAR(32)", required .name "VARCHAR(150)",
     text .passwordHash, required .expiresAt "TIMESTAMPTZ", stamp .createdAt]
    [primaryKey [.id]],
  createIndex .pendingRegistrationsPhoneIdx .pendingRegistrations [.phone, .expiresAt] "(phone, expires_at DESC)",
  createIndex .pendingRegistrationsPhoneUniqueIdx .pendingRegistrations [.phone] "(phone)" true,
  createIndex .pendingRegistrationsSsnUniqueIdx .pendingRegistrations [.ssn] "(ssn)" true]

def file0006 : Migration.File String (Catalog Name) := plain "0006_add_is_admin.sql" [
  alterTable .users [addColumnIfNotExists (required .isAdmin "BOOLEAN" (some "FALSE"))]]

def file0007 : Migration.File String (Catalog Name) := plain "0007_auth_state_and_token_version.sql" [
  alterTable .users [addColumnIfNotExists (required .tokenVersion "INTEGER" (some "0"))],
  createTableIfNotExists .authOtpAttempts
    [required .phone "VARCHAR(32)", text .purpose, required .attempts "INTEGER", required .expiresAt "TIMESTAMPTZ",
     stamp .updatedAt]
    -- the primary key has the name that is generated for it
    [check [.purpose] "purpose IN ('registration', 'password_reset')", check [.attempts] "attempts >= 0",
     ⟨[.phone, .purpose], .primaryKey, some .authOtpAttemptsPkey⟩],
  createIndexIfNotExists .authOtpAttemptsExpiresIdx .authOtpAttempts [.expiresAt] "(expires_at)",
  createTableIfNotExists .authRefreshTokens
    [text .jti, bigint .userId, required .expiresAt "TIMESTAMPTZ", nullable .revokedAt "TIMESTAMPTZ", stamp .createdAt]
    [primaryKey [.jti], references .userId .users "CASCADE"],
  createIndexIfNotExists .authRefreshTokensUserIdx .authRefreshTokens [.userId, .createdAt]
    "(user_id, created_at DESC)",
  createIndexIfNotExists .authRefreshTokensExpiresIdx .authRefreshTokens [.expiresAt] "(expires_at)"]

def file0008 : Migration.File String (Catalog Name) := transaction "0008_admin_audit_logs.sql" [
  createTableIfNotExists .adminAuditLogs
    [identity, bigint .actorId, text .action, text .targetType, nullable .targetId "BIGINT", nullable .payload "JSONB",
     stamp .createdAt]
    [primaryKey [.id], references .actorId .users "CASCADE"],
  createIndexIfNotExists .adminAuditLogsActorIdx .adminAuditLogs [.actorId, .createdAt] "(actor_id, created_at DESC)",
  createIndexIfNotExists .adminAuditLogsTargetIdx .adminAuditLogs [.targetType, .targetId, .createdAt]
    "(target_type, target_id, created_at DESC)"]

def file0009 : Migration.File String (Catalog Name) :=
    plain "0009_user_contacts_text_and_product_details.sql" [
  dropIndexIfExists .userContactsUniqueEmail,
  dropIndexIfExists .userContactsUserTypeIdx,
  dropIndexIfExists .userContactsPrimaryPerTypeIdx,
  .block [([.hasColumn .userContacts .type, .lacksColumn .userContacts .contactType],
    .alterTable .userContacts [.renameColumn .type .contactType])],
  .block [([.customColumn .userContacts .contactType],
    .alterTable .userContacts [.setType .contactType (.builtin "TEXT")])],
  alterTable .userContacts [.dropColumn true .city],
  createIndexIfNotExists .userContactsUniqueEmail .userContacts [.value, .contactType]
    "(LOWER(value)) WHERE contact_type = 'email'" true,
  createIndexIfNotExists .userContactsUserTypeIdx .userContacts [.userId, .contactType] "(user_id, contact_type)",
  createIndexIfNotExists .userContactsPrimaryPerTypeIdx .userContacts [.userId, .contactType, .isPrimary]
    "(user_id, contact_type) WHERE is_primary = TRUE" true,
  dropTypeIfExists .contactType,
  alterTable .products [addColumnIfNotExists (nullable .details "JSONB")],
  dropViewIfExists .productListingView,
  .command (.createView false (listingView
    [.id, .ownerId, .categoryId, .name, .description, .price, .city, .addressText, .details, .status, .createdAt,
     .updatedAt]
    [.deletedAt] "WHERE p.deleted_at IS NULL GROUP BY p.id"))]

def file0010 : Migration.File String (Catalog Name) := plain "0010_favorites_blocks_chat_product_context.sql" [
  alterTable .products
    [addColumnIfNotExists (required .isNegotiable "BOOLEAN" (some "FALSE")),
     addColumnIfNotExists (required .preferredContactMethod "TEXT" (some "'both'"))],
  .block [([.lacksConstraint .productsPreferredContactMethodCheck],
    .alterTable .products [.addConstraint ⟨[.preferredContactMethod],
      .check "preferred_contact_method IN ('phone', 'chat', 'both')", some .productsPreferredContactMethodCheck⟩])],
  alterTable .conversations
    [addColumnIfNotExists (nullable .productId "BIGINT") [references .productId .products "SET NULL"]],
  createIndexIfNotExists .conversationsProductIdIdx .conversations [.productId] "(product_id)",
  createTableIfNotExists .userFavorites
    [bigint .userId, bigint .productId, stamp .createdAt]
    [references .userId .users "CASCADE", references .productId .products "CASCADE", primaryKey [.userId, .productId]],
  createIndexIfNotExists .userFavoritesProductCreatedIdx .userFavorites [.productId, .createdAt]
    "(product_id, created_at DESC)",
  createTableIfNotExists .userBlocks
    [bigint .blockerId, bigint .blockedId, stamp .createdAt]
    [references .blockerId .users "CASCADE", references .blockedId .users "CASCADE", primaryKey [.blockerId, .blockedId],
     check [.blockerId, .blockedId] "blocker_id <> blocked_id"],
  createIndexIfNotExists .userBlocksBlockedIdx .userBlocks [.blockedId, .createdAt] "(blocked_id, created_at DESC)",
  dropViewIfExists .productListingView,
  .command (.createView false (listingView
    [.id, .ownerId, .categoryId, .name, .description, .price, .city, .addressText, .details, .status, .isNegotiable,
     .preferredContactMethod, .createdAt, .updatedAt]
    [.deletedAt] "WHERE p.deleted_at IS NULL GROUP BY p.id"))]

def file0011 : Migration.File String (Catalog Name) :=
    plain "0011_users_contact_info_drop_user_contacts.sql" [
  alterTable .users [addColumnIfNotExists (nullable .contactInfo "TEXT")],
  update [(.users, .contactInfo), (.users, .id), (.userContacts, .userId), (.userContacts, .value),
    (.userContacts, .isPrimary), (.userContacts, .id)],
  dropIndexIfExists .userContactsUniqueEmail,
  dropIndexIfExists .userContactsUserTypeIdx,
  dropIndexIfExists .userContactsPrimaryPerTypeIdx,
  dropTableIfExists .userContacts]

def file0012 : Migration.File String (Catalog Name) := plain "0012_users_soft_delete.sql" [
  alterTable .users [addColumnIfNotExists (nullable .deletedAt "TIMESTAMPTZ")],
  createIndexIfNotExists .usersDeletedAtIdx .users [.deletedAt] "(deleted_at)"]

def file0013 : Migration.File String (Catalog Name) := plain "0013_products_allow_any_category.sql" [
  .command (.dropTrigger true .trgProductsLeafCategory .products),
  .command (.dropFunction true .enforceLeafCategoryForProduct)]

def file0014 : Migration.File String (Catalog Name) := plain "0014_products_category_text_fields.sql" [
  alterTable .products [addColumnIfNotExists (nullable .category "TEXT"), addColumnIfNotExists (nullable .subcategory "TEXT")],
  update [(.products, .category), (.products, .subcategory), (.products, .categoryId), (.categories, .id),
    (.categories, .name), (.categories, .parentId)],
  update [(.products, .category)],
  alterTable .products [.setNotNull .category],
  .block [([.lacksConstraint .productsCategoryNotBlankCheck],
    .alterTable .products [.addConstraint ⟨[.category], .check "LENGTH(BTRIM(category)) > 0",
      some .productsCategoryNotBlankCheck⟩]),
    ([.lacksConstraint .productsSubcategoryNotBlankCheck],
    .alterTable .products [.addConstraint ⟨[.subcategory],
      .check "subcategory IS NULL OR LENGTH(BTRIM(subcategory)) > 0", some .productsSubcategoryNotBlankCheck⟩])],
  dropIndexIfExists .productsCategoryStatusCreatedIdx,
  createIndexIfNotExists .productsCategoryStatusCreatedIdx .products [.category, .status, .createdAt]
    "(category, status, created_at DESC)",
  alterTable .products [.dropConstraint true .productsCategoryIdFkey],
  dropViewIfExists .productListingView,
  alterTable .products [.dropColumn true .categoryId],
  .command (.createView false (listingView
    [.id, .ownerId, .category, .subcategory, .name, .description, .price, .city, .addressText, .details, .status,
     .isNegotiable, .preferredContactMethod, .createdAt, .updatedAt]
    [.deletedAt] "WHERE p.deleted_at IS NULL GROUP BY p.id"))]

def file0015 : Migration.File String (Catalog Name) := plain "0015_products_category_taxonomy_checks.sql" [
  alterTable .products
    [.dropConstraint true .productsCategoryEnumCheck, .dropConstraint true .productsSubcategoryEnumCheck,
     .dropConstraint true .productsSubcategoryNotAllCheck],
  alterTable .products [.addConstraint ⟨[.category], .check
    "category IN ('realEstate', 'vehicles', 'electronics', 'homeAndDecor', 'clothingAndFashion', 'services')",
    some .productsCategoryEnumCheck⟩],
  alterTable .products [.addConstraint ⟨[.subcategory], .check
    "subcategory IS NULL OR subcategory IN ('all', 'apartmentForRent', 'apartmentForSale', 'houses', 'lands',
    'commercialRealEstateForRent', 'commercialRealEstateForSale', 'other', 'carsForSale', 'carsForRent',
    'sparePartsAndAccessories', 'motorCycles', 'bicycles', 'trucksAndHeavyVehicles', 'smartphones', 'tablets',
    'laptopsAndComputers', 'accessories', 'speakersAndHeadphones', 'cameras', 'smartWatchesAndWearables',
    'monitorsAndTVs', 'furniture', 'officeFurniture', 'kitchenAndDining', 'beddingAndBath', 'homeDecor', 'homeTools',
    'lighting', 'menClothing', 'womenClothing', 'kidsClothing', 'shoes', 'menAccessories',
    'womenAccessoriesAndMakeup', 'jewelryAndWatches', 'maintenanceAndRepairs', 'transportationAndMoving',
    'personalServices', 'carsServices', 'homeServices', 'lessonsAndTutoring')",
    some .productsSubcategoryEnumCheck⟩],
  alterTable .products [.addConstraint ⟨[.subcategory], .check "subcategory IS NULL OR subcategory <> 'all'",
    some .productsSubcategoryNotAllCheck⟩]]

end Market

section Kayan

def file0016 : Migration.File String (Catalog Name) := transaction "0016_kayan_v2_core.sql" [
  alterTable .users [addColumnIfNotExists (nullable .email "TEXT")],
  createIndexIfNotExists .usersEmailUniqueIdx .users [.email, .deletedAt]
    "(LOWER(email)) WHERE email IS NOT NULL AND deleted_at IS NULL" true,
  createTypeUnlessExists .kayanOrderStatus ["received", "ready_to_ship", "on_the_way", "cancelled", "delivered"],
  createTypeUnlessExists .kayanFaultStatus
    ["received", "assigned", "on_the_way", "in_progress", "finished", "cancelled"],
  createTypeUnlessExists .kayanServiceStatus ["not_started", "in_progress", "cancelled", "finished"],
  createTypeUnlessExists .kayanFaultSeverity ["normal", "high", "urgent", "emergent"],
  createTypeUnlessExists .kayanServiceType ["designing", "maintenance", "renewal"],
  createTypeUnlessExists .kayanFollowupItemType ["order", "fault", "service"],
  createTypeUnlessExists .kayanRatingItemType ["order", "fault", "service"],
  createTableIfNotExists .catalogProducts
    [identity, text .title, text .description, required .amount "INTEGER", required .price "NUMERIC(12,2)",
     nullable .details "JSONB", required .isActive "BOOLEAN" (some "TRUE"), nullable .createdBy "BIGINT",
     nullable .updatedBy "BIGINT", nullable .deletedAt "TIMESTAMPTZ", stamp .createdAt, stamp .updatedAt]
    [primaryKey [.id], check [.amount] "amount >= 0", check [.price] "price >= 0",
     references .createdBy .users "SET NULL", references .updatedBy .users "SET NULL"],
  createTableIfNotExists .productAssets
    [identity, bigint .productId, bigint .fileId, text .assetType, required .sortOrder "INTEGER" (some "0"),
     stamp .createdAt]
    [primaryKey [.id], references .productId .catalogProducts "CASCADE", references .fileId .files "CASCADE",
     check [.assetType] "asset_type IN ('image', 'file')", check [.sortOrder] "sort_order >= 0",
     unique [.productId, .fileId]],
  createTableIfNotExists .productOrders
    [identity, bigint .userId, text .deliveryAddress, enum .status .kayanOrderStatus (some "'received'"),
     nullable .cancelledAt "TIMESTAMPTZ", stamp .createdAt, stamp .updatedAt]
    [primaryKey [.id], references .userId .users "CASCADE"],
  createTableIfNotExists .orderItems
    [identity, bigint .orderId, bigint .productId, required .quantity "INTEGER", required .unitPrice "NUMERIC(12,2)",
     stamp .createdAt]
    [primaryKey [.id], references .orderId .productOrders "CASCADE", references .productId .catalogProducts "RESTRICT",
     check [.quantity] "quantity > 0", check [.unitPrice] "unit_price >= 0"],
  createTableIfNotExists .orderStatusHistory
    [identity, bigint .orderId, enum .status .kayanOrderStatus, nullable .changedBy "BIGINT", nullable .note "TEXT",
     stamp .createdAt]
    [primaryKey [.id], references .orderId .productOrders "CASCADE", references .changedBy .users "SET NULL"],
  createTableIfNotExists .faultReports
    [identity, bigint .userId, text .title, text .description, enum .severity .kayanFaultSeverity, text .address,
     enum .status .kayanFaultStatus (some "'received'"), nullable .cancelledAt "TIMESTAMPTZ", stamp .createdAt,
     stamp .updatedAt]
    [primaryKey [.id], references .userId .users "CASCADE"],
  createTableIfNotExists .faultAssets
    [identity, bigint .faultId, bigint .fileId, required .sortOrder "INTEGER" (some "0"), stamp .createdAt]
    [primaryKey [.id], references .faultId .faultReports "CASCADE", references .fileId .files "CASCADE",
     check [.sortOrder] "sort_order >= 0", unique [.faultId, .fileId]],
  createTableIfNotExists .faultStatusHistory
    [identity, bigint .faultId, enum .status .kayanFaultStatus, nullable .changedBy "BIGINT", nullable .note "TEXT",
     stamp .createdAt]
    [primaryKey [.id], references .faultId .faultReports "CASCADE", references .changedBy .users "SET NULL"],
  createTableIfNotExists .serviceOrders
    [identity, bigint .userId, enum .serviceType .kayanServiceType, text .description, text .address,
     enum .status .kayanServiceStatus (some "'not_started'"), nullable .cancelledAt "TIMESTAMPTZ", stamp .createdAt,
     stamp .updatedAt]
    [primaryKey [.id], references .userId .users "CASCADE"],
  createTableIfNotExists .serviceStatusHistory
    [identity, bigint .serviceId, enum .status .kayanServiceStatus, nullable .changedBy "BIGINT",
     nullable .note "TEXT", stamp .createdAt]
    [primaryKey [.id], references .serviceId .serviceOrders "CASCADE", references .changedBy .users "SET NULL"],
  createTableIfNotExists .followupSteps
    [identity, enum .itemType .kayanFollowupItemType, bigint .itemId, text .title,
     nullable .stepImageFileId "BIGINT", required .sortOrder "INTEGER" (some "0"), nullable .createdBy "BIGINT",
     stamp .createdAt, stamp .updatedAt]
    [primaryKey [.id], references .stepImageFileId .files "SET NULL", check [.sortOrder] "sort_order >= 0",
     references .createdBy .users "SET NULL"],
  createTableIfNotExists .itemRatings
    [identity, bigint .userId, enum .itemType .kayanRatingItemType, bigint .itemId, required .ratingValue "SMALLINT",
     stamp .createdAt]
    [primaryKey [.id], references .userId .users "CASCADE", check [.ratingValue] "rating_value BETWEEN 1 AND 5",
     unique [.userId, .itemType, .itemId]],
  createTableIfNotExists .galleryItems
    [identity, text .title, text .description, required .isActive "BOOLEAN" (some "TRUE"),
     nullable .createdBy "BIGINT", nullable .updatedBy "BIGINT", nullable .deletedAt "TIMESTAMPTZ", stamp .createdAt,
     stamp .updatedAt]
    [primaryKey [.id], references .createdBy .users "SET NULL", references .updatedBy .users "SET NULL"],
  createTableIfNotExists .galleryAssets
    [identity, bigint .galleryItemId, bigint .fileId, required .sortOrder "INTEGER" (some "0"), stamp .createdAt]
    [primaryKey [.id], references .galleryItemId .galleryItems "CASCADE", references .fileId .files "CASCADE",
     check [.sortOrder] "sort_order >= 0", unique [.galleryItemId, .fileId]],
  createTableIfNotExists .followupConversations
    [identity, enum .itemType .kayanFollowupItemType, bigint .itemId, bigint .userId, bigint .adminId,
     stamp .createdAt]
    [primaryKey [.id], references .userId .users "CASCADE", references .adminId .users "CASCADE",
     unique [.itemType, .itemId, .userId]],
  createTableIfNotExists .followupMessages
    [identity, bigint .conversationId, bigint .senderId, text .messageText, stamp .sentAt]
    [primaryKey [.id], references .conversationId .followupConversations "CASCADE",
     references .senderId .users "CASCADE", check [.messageText] "LENGTH(BTRIM(message_text)) > 0"],
  createIndexIfNotExists .catalogProductsActiveCreatedIdx .catalogProducts [.isActive, .createdAt, .deletedAt]
    "(is_active, created_at DESC) WHERE deleted_at IS NULL",
  createIndexIfNotExists .productOrdersUserCreatedIdx .productOrders [.userId, .createdAt] "(user_id, created_at DESC)",
  createIndexIfNotExists .faultReportsUserCreatedIdx .faultReports [.userId, .createdAt] "(user_id, created_at DESC)",
  createIndexIfNotExists .serviceOrdersUserCreatedIdx .serviceOrders [.userId, .createdAt] "(user_id, created_at DESC)",
  createIndexIfNotExists .followupStepsLookupIdx .followupSteps [.itemType, .itemId, .sortOrder, .id]
    "(item_type, item_id, sort_order, id)",
  createIndexIfNotExists .itemRatingsLookupIdx .itemRatings [.itemType, .itemId] "(item_type, item_id)",
  createIndexIfNotExists .galleryItemsActiveCreatedIdx .galleryItems [.isActive, .createdAt, .deletedAt]
    "(is_active, created_at DESC) WHERE deleted_at IS NULL",
  createIndexIfNotExists .followupMessagesConvSentIdx .followupMessages [.conversationId, .sentAt]
    "(conversation_id, sent_at DESC)"]

def file0017 : Migration.File String (Catalog Name) := transaction "0017_auth_email_otp.sql" [
  alterTable .pendingRegistrations [addColumnIfNotExists (nullable .email "TEXT")],
  -- the old telephone number is read also where every row has an e-mail
  update [(.pendingRegistrations, .email), (.pendingRegistrations, .phone)],
  alterTable .pendingRegistrations [.setNotNull .email],
  dropIndexIfExists .pendingRegistrationsPhoneIdx,
  dropIndexIfExists .pendingRegistrationsPhoneUniqueIdx,
  createIndexIfNotExists .pendingRegistrationsEmailIdx .pendingRegistrations [.email, .expiresAt]
    "(LOWER(email), expires_at DESC)",
  createIndexIfNotExists .pendingRegistrationsEmailUniqueIdx .pendingRegistrations [.email] "(LOWER(email))" true,
  alterTable .pendingRegistrations [.dropColumn true .phone],
  alterTable .authOtps [addColumnIfNotExists (nullable .email "TEXT")],
  update [(.authOtps, .email), (.authOtps, .phone)],
  alterTable .authOtps [.setNotNull .email],
  dropIndexIfExists .authOtpsPhonePurposeCreatedIdx,
  createIndexIfNotExists .authOtpsEmailPurposeCreatedIdx .authOtps [.email, .purpose, .createdAt]
    "(LOWER(email), purpose, created_at DESC)",
  alterTable .authOtps [.dropColumn true .phone],
  alterTable .authOtpAttempts [addColumnIfNotExists (nullable .email "TEXT")],
  update [(.authOtpAttempts, .email), (.authOtpAttempts, .phone)],
  alterTable .authOtpAttempts [.setNotNull .email],
  alterTable .authOtpAttempts [.dropConstraint true .authOtpAttemptsPkey],
  alterTable .authOtpAttempts [.addConstraint ⟨[.email, .purpose], .primaryKey, some .authOtpAttemptsPkey⟩],
  alterTable .authOtpAttempts [.dropColumn true .phone]]

def file0018 : Migration.File String (Catalog Name) :=
    transaction "0018_pending_registrations_email_unique_plain.sql" [
  update [(.pendingRegistrations, .email)],
  dropIndexIfExists .pendingRegistrationsEmailUniqueIdx,
  createIndexIfNotExists .pendingRegistrationsEmailUniquePlainIdx .pendingRegistrations [.email] "(email)" true,
  dropIndexIfExists .pendingRegistrationsEmailIdx,
  createIndexIfNotExists .pendingRegistrationsEmailExpiresIdx .pendingRegistrations [.email, .expiresAt]
    "(email, expires_at DESC)"]

def file0019 : Migration.File String (Catalog Name) := transaction "0019_users_phone_nullable_for_email_auth.sql" [
  alterTable .users [.dropNotNull .phone]]

def file0020 : Migration.File String (Catalog Name) :=
    transaction "0020_pending_registrations_phone_for_email_auth.sql" [
  alterTable .pendingRegistrations [addColumnIfNotExists (nullable .phone "VARCHAR(32)")],
  createIndexIfNotExists .pendingRegistrationsPhoneUniqueIdx .pendingRegistrations [.phone]
    "(phone) WHERE phone IS NOT NULL" true]

def file0021 : Migration.File String (Catalog Name) := transaction "0021_kayan_cart_and_product_ratings.sql" [
  createTableIfNotExists .cartItems
    [identity, bigint .userId, bigint .productId, required .quantity "INTEGER", stamp .createdAt, stamp .updatedAt]
    [primaryKey [.id], references .userId .users "CASCADE", references .productId .catalogProducts "CASCADE",
     check [.quantity] "quantity > 0", unique [.userId, .productId]],
  createTableIfNotExists .productRatings
    [identity, bigint .userId, bigint .orderId, bigint .productId, required .ratingValue "SMALLINT", stamp .createdAt]
    [primaryKey [.id], references .userId .users "CASCADE", references .orderId .productOrders "CASCADE",
     references .productId .catalogProducts "CASCADE", check [.ratingValue] "rating_value BETWEEN 1 AND 5",
     unique [.userId, .orderId, .productId]],
  createIndexIfNotExists .cartItemsUserCreatedIdx .cartItems [.userId, .createdAt] "(user_id, created_at DESC)",
  createIndexIfNotExists .cartItemsProductIdx .cartItems [.productId] "(product_id)",
  createIndexIfNotExists .productRatingsOrderProductIdx .productRatings [.orderId, .productId] "(order_id, product_id)",
  createIndexIfNotExists .productRatingsProductIdx .productRatings [.productId, .createdAt]
    "(product_id, created_at DESC)"]

def file0022 : Migration.File String (Catalog Name) := plain "0022_drop_legacy_social_and_reports.sql" [
  dropTableIfExists .userReports,
  dropTableIfExists .userFavorites,
  dropTableIfExists .userBlocks,
  dropTableIfExists .categories,
  dropTypeIfExists .reportStatus]

def file0023 : Migration.File String (Catalog Name) := plain "0023_gap_remediation.sql" [
  alterTable .users [addColumn (nullable .address "TEXT")],
  alterTable .pendingRegistrations [addColumn (nullable .address "TEXT")],
  alterTable .itemRatings [addColumn (nullable .comment "TEXT")],
  alterTable .productRatings [addColumn (nullable .comment "TEXT")],
  alterTable .users [.dropColumn true .ssn],
  alterTable .pendingRegistrations [.dropColumn true .ssn]]

end Kayan

/-- The files in the order in which the shell lists them. -/
def files : List (Migration.File String (Catalog Name)) :=
  [file0001, file0002, file0003, file0004, file0005, file0006, file0007, file0008, file0009, file0010, file0011,
   file0012, file0013, file0014, file0015, file0016, file0017, file0018, file0019, file0020, file0021, file0022,
   file0023]

end Kayan.Migrations
