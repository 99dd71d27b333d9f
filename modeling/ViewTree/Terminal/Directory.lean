import ViewTree.Config.Build

/-!
# The user directory

The view a terminal shows when it is given no other: a choice of users loaded from a service, and
the details of the one chosen.
-/

namespace ViewTree.Terminal

namespace Directory

/-- The address the users are at. -/
def usersUrl : String := "https://jsonplaceholder.typicode.com/users"

/-- The placeholder for a value of the state. -/
def placeholder (path : String) : String := "$\x7bstate." ++ path ++ "\x7d"

/-- A node of a kind with a class name. -/
def styled (kind className : String) : Node :=
  (Node.ofKind kind).prop "className" (.text className)

/-- A node with these nodes for children. -/
def containing (node : Node) (children : List Node) : Node :=
  { node with children := some (.many (children.map .node)) }

/-- A load of the users for the choice. -/
def usersFetch : FetchSpec :=
  { key := "users", api := .get usersUrl, transform := some "toOptions",
    onSuccess := some (.setState "usersLoaded" (.object [("value", .bool true)])) }

/-- The choice of a user. -/
def choice : Node :=
  ((styled "Select" "mb-4").prop "placeholder" (.text "Select User"))
    |>.bind "options" { source := "users" }
    |>.bind "value" { source := "selectedUser" }
    |>.bind "loading" { source := "users_loading" }
    |>.bind "error" { source := "users_error" }
    |>.on .change (.setState "selectedUser" (.text "$\x7bevent.target.value\x7d"))

/-- An action that clears a state key. -/
def clear (target : String) : Action := { kind := .setState, target := some target }

/-- The button that loads the details of the chosen user. -/
def detailsButton : Node :=
  ((Node.ofKind "Button").prop "variant" (.text "outline")).text "Get User Details"
    |>.when (.expression (placeholder "selectedUser"))
    |>.on .click (.api "userDetails" (.get (usersUrl ++ "/" ++ placeholder "selectedUser")))

/-- The button that clears the choice. -/
def clearButton : Node :=
  ((Node.ofKind "Button").prop "variant" (.text "ghost")).text "Clear"
    |>.when (.expression (placeholder "selectedUser"))
    |>.on .click (clear "selectedUser")
    |>.on .click (clear "userDetails")

/-- A message that shows while something loads. -/
def notice (node : Node) (key text : String) : Node :=
  ((node.prop "variant" (.text "info")).when (.expression (placeholder key))).text text

/-- A message that shows an error. -/
def failure (node : Node) (key : String) : Node :=
  ((node.prop "variant" (.text "destructive")).when (.expression (placeholder key))).bind
    "children" { source := key, transform := some "toString" }

/-- A row of the details: what it is, and the value. -/
def detail (title field : String) : Node :=
  containing (Node.ofKind "div")
    [(styled "span" "font-semibold").text title,
     (Node.ofKind "span").bind "children" { source := "userDetails", field := some field }]

/-- The details of a user. -/
def details : Node :=
  containing ((Node.ofKind "Card").when (.expression (placeholder "userDetails")))
    [containing (Node.ofKind "CardHeader")
      [(Node.ofKind "CardTitle").bind "children" { source := "userDetails", field := some "name" }],
     containing (Node.ofKind "CardContent")
      [containing (styled "div" "space-y-2")
        [detail "Email: " "email", detail "Phone: " "phone", detail "Website: " "website",
         detail "Company: " "company.name"]]]

/-- The whole view. -/
def root : Node :=
  containing ((styled "Card" "w-full max-w-md mx-auto mt-8").fetch usersFetch)
    [containing (Node.ofKind "CardHeader") [(Node.ofKind "CardTitle").text "User Management"],
     containing (Node.ofKind "CardContent")
      [choice,
       containing (styled "div" "flex gap-2 mb-4") [detailsButton, clearButton],
       notice (Node.ofKind "Alert") "users_loading" "Loading users...",
       failure (Node.ofKind "Alert") "users_error",
       details,
       notice (styled "Alert" "mt-4") "userDetails_loading" "Loading user details...",
       failure (styled "Alert" "mt-4") "userDetails_error"]]

end Directory

end ViewTree.Terminal
