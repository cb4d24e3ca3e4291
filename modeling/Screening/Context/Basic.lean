import Screening.Value.Basic

/-!
# Contexts

What a rule is checked against: the voucher that is to be redeemed with its campaign, the customer,
the order, how often the voucher was redeemed, and data of the request. A context is a plain record
of these and never changes; `with…` answers with a changed copy.
-/

namespace Screening

structure Campaign where
  id : String := ""
  metadata : Metadata := []
deriving Inhabited

structure Voucher where
  code : String := ""
  metadata : Metadata := []
  campaign : Option Campaign := none
deriving Inhabited

structure Customer where
  sourceId : Option String := none
  email : Option String := none
  metadata : Metadata := []
deriving Inhabited

structure OrderLine where
  sku : Option String := none
  product : Option String := none
  quantity : Int64 := 0
  price : Option Decimal := none
deriving Inhabited

structure Order where
  amount : Decimal := .zero
  currency : Option String := none
  items : List OrderLine := []
  metadata : Metadata := []
deriving Inhabited

/-- How often the voucher was redeemed, in all and by the customer. -/
structure Counters where
  total : UInt64 := 0
  perCustomer : UInt64 := 0
deriving Inhabited, DecidableEq

/-- What rules are checked against. -/
structure Context where
  voucher : Voucher := {}
  customer : Option Customer := none
  order : Option Order := none
  counters : Counters := {}
  requestMetadata : Metadata := []
deriving Inhabited

namespace Campaign

def withMetadata (campaign : Campaign) (key : String) (value : Value) : Campaign :=
  { campaign with metadata := Keyed.insert key value campaign.metadata }

end Campaign

namespace Voucher

def withMetadata (voucher : Voucher) (key : String) (value : Value) : Voucher :=
  { voucher with metadata := Keyed.insert key value voucher.metadata }

def withCampaign (voucher : Voucher) (campaign : Campaign) : Voucher :=
  { voucher with campaign := some campaign }

end Voucher

namespace Customer

def withSourceId (customer : Customer) (id : String) : Customer :=
  { customer with sourceId := some id }

def withEmail (customer : Customer) (email : String) : Customer :=
  { customer with email := some email }

def withMetadata (customer : Customer) (key : String) (value : Value) : Customer :=
  { customer with metadata := Keyed.insert key value customer.metadata }

end Customer

namespace Order

def withCurrency (order : Order) (currency : String) : Order :=
  { order with currency := some currency }

/-- Adds a line at the end. -/
def withItem (order : Order) (item : OrderLine) : Order :=
  { order with items := order.items ++ [item] }

def withMetadata (order : Order) (key : String) (value : Value) : Order :=
  { order with metadata := Keyed.insert key value order.metadata }

end Order

namespace Context

def withCustomer (context : Context) (customer : Customer) : Context :=
  { context with customer := some customer }

def withOrder (context : Context) (order : Order) : Context :=
  { context with order := some order }

def withCounters (context : Context) (total perCustomer : UInt64) : Context :=
  { context with counters := ⟨total, perCustomer⟩ }

def withRequestMetadata (context : Context) (key : String) (value : Value) : Context :=
  { context with requestMetadata := Keyed.insert key value context.requestMetadata }

end Context

end Screening
