import Kayan.Fk.Lookup
import Kayan.Lib.Results
import Kayan.Reads.Timestamps

/-!
# What ids in responses resolve to

Order and cart items carry the ordered product beside its id, and follow-up messages the id
of their follow-up conversation. The rules of the expansion take both ids to be keys of
other tables: the legacy `products` and the chat `conversations`.
-/
namespace Kayan.Reads
open Shop Fk Payload Interleave
variable {rd : Reader} {dir : Directory} {look : Resolver} {drv : Driver} {p v out : Payload}

/-- The responses with order or cart items, for any replies of the database. -/
inductive Returned (drv : Driver) : Payload → Prop
  | createOrder {userId : Nat} {deliveryAddress : String} {items : List OrderLine} {v : Payload}
      (h : Returns (createOrder drv userId deliveryAddress items) v) : Returned drv v
  | checkoutCart {userId : Nat} {deliveryAddress : String} {v : Payload}
      (h : Returns (checkoutCart drv userId deliveryAddress) v) : Returned drv v
  | getOrderForUser {userId orderId : Nat} {allowAdmin : Bool} {v : Payload}
      (h : Returns (Shop.getOrderForUser drv userId orderId allowAdmin) v) : Returned drv v
  | listMyOrders (s : Store) (user : AuthUser) (query : ListOrdersQueryDto) :
      Returned drv (listMyOrders drv s user query)
  | adminListOrders (s : Store) (query : ListOrdersQueryDto) : Returned drv (adminListOrders drv s query)
  | listCart {userId : Nat} {v : Payload} (h : Returns (listCart drv userId) v) : Returned drv v

/-- The products that a row shows: its own, for a cart item, and those of its items. -/
def rowProducts (row : Payload) : List Payload :=
  (field "product" row).toList ++
    match field "items" row with
    | some (.arr items) => items.filterMap (field "product")
    | _ => []

/-- The products that the items of a response show. -/
def shownProducts (response : Payload) : List Payload := response.rows.flatMap rowProducts

/-- The item shows the product that was attached to it. -/
def SameProduct (attached shown : Payload) : Prop :=
  ∀ column ∈ ["id", "title", "is_active"], field column shown = field column attached

/-- Every item of the response still shows its product. -/
def ShowsProducts (v out : Payload) : Prop :=
  List.Forall₂ SameProduct (shownProducts v) (shownProducts out)

/-- An attached product has a title, and what is shown in its place has none. -/
def Lost (attached shown : Payload) : Prop :=
  (field "title" attached).isSome ∧ field "title" shown = none

theorem not_sameProduct {attached shown : Payload} (h : Lost attached shown) :
    ¬ SameProduct attached shown := by
  intro hs
  have htitle := hs "title" (by simp)
  rw [h.2] at htitle
  simp [Lost, ← htitle] at h

/-- Where all products are lost, they are shown only if there are none. -/
theorem showsProducts_iff (h : List.Forall₂ Lost (shownProducts v) (shownProducts out)) :
    ShowsProducts v out ↔ shownProducts v = [] := by
  unfold ShowsProducts
  generalize shownProducts v = attached at h ⊢
  generalize shownProducts out = shown at h ⊢
  cases h with
  | nil => simp
  | cons hlost _ =>
    constructor
    · intro hs
      cases hs with
      | cons hsame _ => exact absurd hsame (not_sameProduct hlost)
    · intro hnil
      cases hnil

/-- The record of a legacy product has no title. -/
theorem replacement_product_title (value : Payload) :
    field "title" (replacement (lookup rd dir) { entity := some .product } value) = none := by
  unfold replacement
  simp only [Option.bind_some]
  cases hid : toPositiveInt value with
  | none => rfl
  | some id =>
    cases hrecord : lookup rd dir .product id with
    | none => simp [hrecord, field]
    | some record =>
      obtain ⟨row, rfl⟩ := lookup_product hrecord
      simp only [Option.bind_some, hrecord, Option.getD_some]
      rfl

/-- An order with the given items, before and after expansion. -/
structure Holds (look : Resolver) (order : Payload) (items : List Payload) : Prop where
  attached : rowProducts order = items.filterMap (field "product")
  shown : rowProducts (transformNode look order) = (transformItems look items).filterMap (field "product")

/-- The items of an order lose their products. -/
theorem items_lost (rows : List OrderItemRow) :
    List.Forall₂ Lost ((rows.map orderItemPayload).filterMap (field "product"))
      ((transformItems (lookup rd dir) (rows.map orderItemPayload)).filterMap (field "product")) := by
  induction rows with
  | nil => exact .nil
  | cons row rest ih =>
    have hattached : field "product" (orderItemPayload row) = some (.obj
      [("id", .num row.item.productId), ("title", .ofText row.title),
       ("is_active", row.isActive.elim .null .bool)]) := rfl
    have hshown : field "product" (transformNode (lookup rd dir) (orderItemPayload row)) =
      some (replacement (lookup rd dir) { entity := some .product } (.num row.item.productId)) := rfl
    rw [List.map_cons, transformItems, List.filterMap_cons_some hattached, List.filterMap_cons_some hshown]
    exact .cons ⟨rfl, replacement_product_title _⟩ ih

theorem Holds.lost {order : Payload} {rows : List OrderItemRow} {orderId : Nat}
    (h : Holds (lookup rd dir) order (itemsByOrderId rows orderId)) :
    List.Forall₂ Lost (rowProducts order) (rowProducts (transformNode (lookup rd dir) order)) := by
  rw [h.attached, h.shown, itemsByOrderId_eq]
  exact items_lost _

/-- The rows of a response lose their products, if each row does. -/
theorem rows_lost {rows : List Payload}
    (h : ∀ row ∈ rows, List.Forall₂ Lost (rowProducts row) (rowProducts (transformNode look row))) :
    List.Forall₂ Lost (rows.flatMap rowProducts) ((transformItems look rows).flatMap rowProducts) := by
  induction rows with
  | nil => exact .nil
  | cons row rest ih =>
    rw [transformItems, List.flatMap_cons, List.flatMap_cons]
    exact List.rel_append (h row List.mem_cons_self) (ih fun r hr => h r (List.mem_cons_of_mem _ hr))

theorem listedOrder_holds (rows : List OrderItemRow) (po : ProductOrder) :
    Holds look (orderPayload rows false (orderRecord drv po)) (itemsByOrderId rows po.id) := ⟨rfl, rfl⟩

theorem orderRow_holds (rows : List OrderItemRow) (row : OrderRow) :
    Holds look (orderPayload rows true (orderRowRecord drv row)) (itemsByOrderId rows row.order.id) := ⟨rfl, rfl⟩

/-- The response of the methods that return one order. -/
def IsOrder (v : Payload) : Prop :=
  ∃ order rows orderId, v = .obj [("order", order)] ∧ ∀ look, Holds look order (itemsByOrderId rows orderId)

theorem createOrderRecord_returns {userId : Nat} {deliveryAddress : String} {items : List OrderLine}
    (h : Returns (createOrderRecord drv userId deliveryAddress items) v) : IsOrder v := by
  obtain ⟨orderId, -, h⟩ := Returns.bind h
  obtain ⟨-, -, h⟩ := Returns.bind h
  obtain ⟨-, -, h⟩ := Returns.bind h
  obtain ⟨rows, -, h⟩ := Returns.bind h
  obtain ⟨createdAt, -, h⟩ := Returns.bind h
  obtain ⟨updatedAt, -, h⟩ := Returns.bind h
  exact ⟨_, rows, orderId, (Returns.pure h).symm, fun _ => ⟨rfl, rfl⟩⟩

theorem createOrder_returns {userId : Nat} {deliveryAddress : String} {items : List OrderLine}
    (h : Returns (createOrder drv userId deliveryAddress items) v) : IsOrder v := by
  unfold createOrder at h
  split at h
  · exact (Returns.throw h).elim
  · exact createOrderRecord_returns (Returns.transaction h)

theorem checkoutCart_returns {userId : Nat} {deliveryAddress : String}
    (h : Returns (checkoutCart drv userId deliveryAddress) v) : IsOrder v := by
  obtain ⟨cart, -, h⟩ := Returns.bind (Returns.transaction h)
  unfold checkoutRows at h
  split at h
  · exact (Returns.throw h).elim
  · obtain ⟨order, horder, h⟩ := Returns.bind h
    obtain ⟨-, -, h⟩ := Returns.bind h
    rw [← Returns.pure h]
    exact createOrderRecord_returns horder

theorem getOrderForUser_returns {userId orderId : Nat} {allowAdmin : Bool}
    (h : Returns (Shop.getOrderForUser drv userId orderId allowAdmin) v) : IsOrder v := by
  obtain ⟨row, -, h⟩ := Returns.bind h
  cases row with
  | none => exact (Returns.throw h).elim
  | some row =>
    simp only at h
    split at h
    · exact (Returns.throw h).elim
    · obtain ⟨rows, -, h⟩ := Returns.bind h
      exact ⟨_, rows, row.order.id, (Returns.pure h).symm, fun _ => orderRow_holds rows row⟩

theorem IsOrder.lost (h : IsOrder v) :
    List.Forall₂ Lost (shownProducts v) (shownProducts (transformNode (lookup rd dir) v)) := by
  obtain ⟨order, rows, orderId, rfl, h⟩ := h
  refine rows_lost (List.forall_mem_singleton.mpr ?_)
  exact (h _).lost

theorem listCart_returns {userId : Nat} (h : Returns (listCart drv userId) v) :
    ∃ (rows : List CartRow) (assets : List ProductAssetRow),
      v = .obj [("items", .arr (rows.map (cartItemPayload drv assets)))] := by
  obtain ⟨rows, -, h⟩ := Returns.bind h
  split at h
  · exact ⟨[], [], (Returns.pure h).symm⟩
  · obtain ⟨assets, -, h⟩ := Returns.bind h
    exact ⟨rows, assets, (Returns.pure h).symm⟩

/-- A cart item loses its product. -/
theorem cartItem_lost (assets : List ProductAssetRow) (row : CartRow) :
    List.Forall₂ Lost (rowProducts (cartItemPayload drv assets row))
      (rowProducts (transformNode (lookup rd dir) (cartItemPayload drv assets row))) := by
  have hattached : rowProducts (cartItemPayload drv assets row) =
    [.obj (attachProductAssets assets row.item.productId
       [("id", drv.bigint row.item.productId), ("title", .str row.product.title),
        ("description", .str row.product.description), ("amount", .num row.product.amount),
        ("price", .str row.product.price), ("is_active", .bool row.product.isActive)])] := rfl
  have hshown : rowProducts (transformNode (lookup rd dir) (cartItemPayload drv assets row)) =
    [replacement (lookup rd dir) { entity := some .product } (drv.bigint row.item.productId)] := rfl
  rw [hattached, hshown]
  exact .cons ⟨rfl, replacement_product_title _⟩ .nil

/-- Every returned order or cart item loses its product. -/
theorem Returned.lost (h : Returned drv v) :
    List.Forall₂ Lost (shownProducts v) (shownProducts (transformNode (lookup rd dir) v)) := by
  cases h with
  | createOrder h => exact (createOrder_returns h).lost
  | checkoutCart h => exact (checkoutCart_returns h).lost
  | getOrderForUser h => exact (getOrderForUser_returns h).lost
  | listMyOrders s user query =>
    refine rows_lost fun row hrow => ?_
    obtain ⟨record, hrecord, rfl⟩ := List.mem_map.mp hrow
    obtain ⟨po, -, rfl⟩ := List.mem_map.mp hrecord
    exact (listedOrder_holds _ po).lost
  | adminListOrders s query =>
    refine rows_lost fun row hrow => ?_
    obtain ⟨record, hrecord, rfl⟩ := List.mem_map.mp hrow
    obtain ⟨po, -, rfl⟩ := List.mem_map.mp hrecord
    exact (orderRow_holds _ ⟨po, _⟩).lost
  | listCart h =>
    obtain ⟨rows, assets, rfl⟩ := listCart_returns h
    refine rows_lost fun row hrow => ?_
    obtain ⟨item, -, rfl⟩ := List.mem_map.mp hrow
    exact cartItem_lost assets item

/-- The responses of the follow-up chat. -/
inductive FollowupResponse (drv : Driver) : Payload → Prop
  | listFollowupMessages {s : Store} {user : AuthUser} {conversationId itemId : Nat} {itemType : ItemType}
      {p : Payload} (h : listFollowupMessages drv s user conversationId itemType itemId = .ok p) :
      FollowupResponse drv p
  | sendFollowupMessage (fm : FollowupMessage) :
      FollowupResponse drv (.obj [("message", .obj (messageFields drv fm))])
  | createFollowupConversation (fc : FollowupConversation) :
      FollowupResponse drv (.obj [("conversation", .obj (conversationFields drv fc))])

/-- The looked-up entity whose table a follow-up column references. The `conversation_id`
of a message references `followup_conversations`, which is none of them. -/
def references (key : String) : Option EntityType :=
  if key ∈ ["sender_id", "user_id", "admin_id"] then some .user else none

/-- Each id of the row is shown as a record of the table that it references, if as any. -/
def ResolvesOwn (row shown : Payload) : Prop :=
  ∀ fs, row = .obj fs → ∀ key ∈ fs.map Prod.fst, ∀ rule entity record, ruleFor fs key = some rule →
    rule.entity = some entity → field (rule.output key) shown = some record → record ≠ .null →
    references key = some entity

/-- No chat conversation has the conversation id of the row. -/
def NoChat (dir : Directory) (row : Payload) : Prop :=
  ∀ value id, field "conversation_id" row = some value → toPositiveInt value = some id →
    ∀ chat ∈ dir.conversations, chat.id ≠ id

theorem conversation_resolvesOwn (fc : FollowupConversation) :
    ResolvesOwn (.obj (conversationFields drv fc)) (transformNode look (.obj (conversationFields drv fc))) := by
  rintro fs hfs key hkey rule entity record hrule hentity - -
  cases hfs
  simp only [conversationFields, List.map_cons, List.map_nil, List.mem_cons, List.not_mem_nil, or_false] at hkey
  rcases hkey with rfl | rfl | rfl | rfl | rfl | rfl
  · cases hrule
  · cases hrule
  · cases hrule
  · cases hrule
    exact hentity
  · cases hrule
    exact hentity
  · cases hrule

/-- The conversation id of a message is looked up. -/
theorem conversation_collected (fm : FollowupMessage) {id : Nat}
    (hid : toPositiveInt (drv.bigint fm.conversationId) = some id) :
    (EntityType.conversation, id) ∈ collectIds (.obj (messageFields drv fm)) := by
  have hmem : ("conversation_id", drv.bigint fm.conversationId) ∈ messageFields drv fm := by
    simp [messageFields]
  have hrule : ruleFor (messageFields drv fm) "conversation_id" = some { entity := some .conversation } := rfl
  exact mem_collectFields hrule rfl hid hmem

/-- A message resolves its ids properly exactly when no chat has its conversation id. -/
theorem message_resolvesOwn_iff (fm : FollowupMessage)
    (hlook : Lookable dir (collectIds (.obj (messageFields drv fm)))) :
    ResolvesOwn (.obj (messageFields drv fm)) (transformNode (lookup rd dir) (.obj (messageFields drv fm))) ↔
      NoChat dir (.obj (messageFields drv fm)) := by
  have hshown : field "conversation" (transformNode (lookup rd dir) (.obj (messageFields drv fm))) =
    some (replacement (lookup rd dir) { entity := some .conversation } (drv.bigint fm.conversationId)) := rfl
  constructor
  · intro hown value id hvalue hid chat hchat heq
    cases hvalue
    have hbound := (hlook _ (conversation_collected fm hid)).1
    have hfound : (lookup rd dir .conversation id).isSome :=
      (lookup_conversation_isSome hbound).mpr ⟨chat, hchat, heq⟩
    obtain ⟨record, hrecord⟩ := Option.isSome_iff_exists.mp hfound
    have hreplace : replacement (lookup rd dir) { entity := some .conversation } (drv.bigint fm.conversationId) =
        record := by
      simp [replacement, hid, hrecord]
    obtain ⟨fs, hobj⟩ := lookup_obj hrecord
    have href := hown _ rfl "conversation_id" (by simp [messageFields]) { entity := some .conversation }
      .conversation record rfl rfl (hreplace ▸ hshown) (by simp [hobj])
    cases href
  · rintro hno fs hfs key hkey rule entity record hrule hentity hrecord hnull
    cases hfs
    simp only [messageFields, List.map_cons, List.map_nil, List.mem_cons, List.not_mem_nil, or_false] at hkey
    rcases hkey with rfl | rfl | rfl | rfl | rfl
    · cases hrule
    · cases hrule
      have hreplace := Option.some.inj (hshown.symm.trans hrecord)
      cases hid : toPositiveInt (drv.bigint fm.conversationId) with
      | none => simp [replacement, hid, ← hreplace] at hnull
      | some id =>
        cases hfound : lookup rd dir .conversation id with
        | none => simp [replacement, hid, hfound, ← hreplace] at hnull
        | some chat =>
          have hbound := (hlook _ (conversation_collected fm hid)).1
          have hsome : (lookup rd dir .conversation id).isSome := by simp [hfound]
          obtain ⟨row, hrow, heq⟩ := (lookup_conversation_isSome hbound).mp hsome
          exact absurd heq (hno _ id rfl hid row hrow)
    · cases hrule
      exact hentity
    · cases hrule
    · cases hrule

theorem lookable_items {rows : List Payload} {row : Payload} (h : Lookable dir (collectItems rows))
    (hrow : row ∈ rows) : Lookable dir (collectIds row) := by
  induction rows with
  | nil => cases hrow
  | cons x rest ih =>
    rw [collectItems] at h
    rcases List.mem_cons.mp hrow with rfl | hrest
    · exact fun y hy => h y (List.mem_append_left _ hy)
    · exact ih (fun y hy => h y (List.mem_append_right _ hy)) hrest

/-- A relation between the rows and what is shown for them, row by row. -/
theorem forall₂_transformItems {R : Payload → Payload → Prop} {P : Payload → Prop} {rows : List Payload}
    (h : ∀ row ∈ rows, R row (transformNode look row) ↔ P row) :
    List.Forall₂ R rows (transformItems look rows) ↔ ∀ row ∈ rows, P row := by
  induction rows with
  | nil => simp [transformItems]
  | cons row rest ih =>
    rw [transformItems, List.forall₂_cons, List.forall_mem_cons, h row List.mem_cons_self,
      ih fun r hr => h r (List.mem_cons_of_mem _ hr)]

theorem followup_resolvesOwn_iff (h : FollowupResponse drv p) (hlook : Lookable dir (collectIds p)) :
    List.Forall₂ ResolvesOwn p.rows (transformNode (lookup rd dir) p).rows ↔ ∀ row ∈ p.rows, NoChat dir row := by
  cases h with
  | sendFollowupMessage fm =>
    refine forall₂_transformItems (List.forall_mem_singleton.mpr ?_)
    rw [collectIds_single rfl] at hlook
    exact message_resolvesOwn_iff fm hlook
  | createFollowupConversation fc =>
    refine forall₂_transformItems (List.forall_mem_singleton.mpr ?_)
    refine iff_of_true (conversation_resolvesOwn fc) fun value id hvalue => ?_
    cases hvalue
  | @listFollowupMessages s user conversationId itemId itemType p h =>
    unfold Reads.listFollowupMessages at h
    cases haccess : assertFollowupConversationAccess s user conversationId with
    | error e => rw [haccess] at h; cases h
    | ok _ =>
      cases hscope : assertFollowupConversationItemScope s conversationId itemType itemId with
      | error e => rw [haccess, hscope] at h; cases h
      | ok _ =>
        rw [haccess, hscope] at h
        injection h with h
        subst h
        refine forall₂_transformItems fun row hrow => ?_
        obtain ⟨fm, -, rfl⟩ := List.mem_map.mp hrow
        rw [collectIds_single rfl] at hlook
        exact message_resolvesOwn_iff fm (lookable_items hlook hrow)

def bicycle : ProductRow where
  id := 5
  ownerId := 7
  name := "Bicycle"
  price := "900.00"
  status := "available"
  city := "Giza"
  createdAt := "2024-03-01 08:00:00+00"

/-- Mona has ordered a lamp, product 5 of the catalog, and chats about the order with an
admin. Product 5 of the legacy table is a bicycle, and there is a chat conversation 4. -/
def lampStore : Store where
  catalog := fun p => if p = 5 then some { title := "Lamp", description := "Desk lamp", amount := 3, price := "80.00" } else none
  accounts := fun u => if u = 7 then some ⟨"Mona", "mona@shop.eg", none⟩ else none
  orders := [{ id := 1, userId := 7, deliveryAddress := "12 Nile St", createdAt := 0, updatedAt := 0 }]
  items := [⟨1, 1, 5, 2, "80.00"⟩]
  faults := []
  faultAssets := []
  ratings := []
  services := []
  steps := []
  conversations := [⟨4, .order, 1, 7, 9, 0⟩]
  messages := [⟨1, 4, 9, "On its way", 0⟩]
  directory := { monaOnly with products := [bicycle], conversations := [⟨4, "2024-03-02 08:00:00+00"⟩] }
  ordersKeyed := by decide
  faultsKeyed := by decide
  servicesKeyed := by decide
  conversationsKeyed := by decide

def mona : AuthUser := ⟨7, false⟩

def lampOrders : Payload := listMyOrders plainReader.toDriver lampStore mona {}

end Kayan.Reads
